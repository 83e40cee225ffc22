import Station.Proofs.ContentDirectory
import Station.Proofs.Despawn
import Station.Proofs.Redefinition

/-!
# The components that prototypes declare

Two readers answer which felinid component a prototype id stands for, and they disagree on ids under
which several components are declared. `Catalogue.felinidFor` takes the first one that the catalogue
declares under the id (`felinidFor_eq`), and the server, whose templates are a table, attaches the
last one (`get?_templatesOf`), through every run. Nothing keeps such ids out of a catalogue that a
server is built from, so an entity may get another component than its catalogue answers with.

The two agree on whether there is a component at all, and on which one where the first and the last
are the same, as under an id that only one document declares a component for.
-/

namespace Station

/-! ## Declared components -/

/-- The felinid components of the entities with an id, in the order in which they were read. -/
def Catalogue.declared (c : Catalogue) (id : PrototypeId) : List Felinid :=
  c.entities.filterMap fun entity => if entity.id = id then entity.component? else none

theorem Catalogue.felinidFor_eq (c : Catalogue) (id : PrototypeId) :
    c.felinidFor id = (c.declared id).head? :=
  (List.head?_filterMap ..).symm

namespace Server

theorem get?_templatesOf (c : Catalogue) (id : PrototypeId) :
    (templatesOf c).get? id = (c.declared id).getLast? := by
  have hrow : ∀ entity : EntityPrototype,
      ((entity.component?.map fun component => (entity.id, component)).bind fun row =>
        if row.1 = id then some row.2 else none) =
      (if entity.id = id then entity.component? else none).map fun component => component := by
    intro entity
    cases entity.component? <;> split <;> simp_all
  rw [templatesOf, Table.get?_ofList_filterMap hrow, Catalogue.declared]
  exact Option.map_id'

theorem templates_after {s : Server} (h : s.Sound) (requests : List Request) :
    (s.after requests).templates = s.templates := by
  induction requests generalizing s with
  | nil => rfl
  | cons request rest ih => rw [after_cons, ih (h.perform request), templates_perform h]

/-! ## Spawning -/

/-- A server attaches to an entity that it makes, after whatever run, the last component that the
content of its directory declares for the prototype, while the catalogue answers with the first, so
that they disagree where these two differ. There is none for the one exactly if there is none for
the other, and they are the same where the first and the last one declared are, in particular if no
two are declared. -/
theorem spawn_attaches_the_last_declared {tree : FileTree} {config : ServerConfig} {s : Server}
    (h : bootstrap tree config = .ok s) :
    ∃ c, ({} : Catalogue).addDirectory tree config.prototypesDir = .ok c ∧
      ∀ requests id,
        let t := s.after requests
        let attached := (c.declared id).getLast?
        (t.spawn id).answer = .ok t.nextUid ∧
          (t.spawn id).server.felinids.rows =
            attached.elim t.felinids.rows (t.felinids.rows.insert t.nextUid) ∧
          c.felinidFor id = (c.declared id).head? ∧
          (attached = none ↔ c.felinidFor id = none) ∧
          ((c.declared id).length ≤ 1 → attached = c.felinidFor id) := by
  obtain ⟨c, hadded, rfl⟩ := exists_catalogue_of_bootstrap h
  refine ⟨c, hadded, fun requests id => ?_⟩
  intro t attached
  have hsound := sound_ofCatalogue config c
  have htemplate : t.templates.get? id = attached := by
    rw [templates_after hsound requests]
    exact get?_templatesOf c id
  have hspawn := spawn_eq (hsound.after requests) id
  refine ⟨by rw [hspawn], ?_, c.felinidFor_eq id, ?_, fun hlength => ?_⟩
  · rw [hspawn, htemplate]
    cases attached <;> rfl
  · rw [c.felinidFor_eq, List.getLast?_eq_none_iff, List.head?_eq_none_iff]
  · rw [c.felinidFor_eq]
    match hdeclared : c.declared id, hlength with
    | [], _ => simp [attached, hdeclared]
    | [component], _ => simp [attached, hdeclared]

/-! ## A directory with one file -/

/-- A directory with a file of a text. -/
def single (text : String) : FileTree where
  root := .directory [("p", .directory [("a.yml", .file text.toUTF8)])]

/-- The catalogue of the directory holds what the text holds. -/
theorem addDirectory_single {text : String} {documents : List Yaml.Value}
    {loaded : List LoadedPrototype} (hparse : Yaml.parse text = .ok (.sequence documents))
    (hread : readDocuments ⟨"p/a.yml"⟩ 0 documents = .ok loaded) :
    ({} : Catalogue).addDirectory (single text) ⟨"p"⟩ = .ok { prototypes := loaded } := by
  have hverbatim : (⟨"p"⟩ : Path).Verbatim := ⟨by decide, by decide⟩
  have hlocate : (single text).locate ⟨"p"⟩ = .ok ["p"] := rfl
  have hscan (extension : String) := Glob.scanContent_eq extension hverbatim hlocate rfl
  have hname (extension : String) :
      Glob.withExtension extension [("a.yml", .file text.toUTF8)] =
        if Glob.HasExtension extension ["a.yml"] then [(["a.yml"], .file text.toUTF8)] else [] := by
    simp [Glob.withExtension, FileNode.reachableIn, FileNode.reachable, List.filter_cons]
  have hshort : scanContent (single text) ⟨"p"⟩ "yml" = .ok [⟨"p/a.yml"⟩] := by
    rw [(hscan "yml" (by decide) (by decide)).2, hname, if_pos (by decide)]
    rfl
  have hlong : scanContent (single text) ⟨"p"⟩ "yaml" = .ok [] := by
    rw [(hscan "yaml" (by decide) (by decide)).2, hname, if_neg (by decide)]
    rfl
  have htext : (single text).readText ⟨"p/a.yml"⟩ = .ok text :=
    FileTree.readText_of_find (FileTree.find_of_locate rfl rfl)
  have hdocuments : Catalogue.documentsAt (single text) ⟨"p/a.yml"⟩ = .ok loaded := by
    rw [Catalogue.documentsAt, htext]
    simp only [hparse, documentsOf?, hread]
  have hyielded : ({} : Catalogue).addYielded (single text) [⟨"p/a.yml"⟩] =
      { prototypes := loaded } := by
    have hfiles : [⟨"p/a.yml"⟩].filter (single text).isFile = [⟨"p/a.yml"⟩] := rfl
    rw [Catalogue.addYielded, hfiles, Path.sort, List.mergeSort_singleton, List.foldl_cons,
      List.foldl_nil, Catalogue.addFile_eq, hdocuments]
    rfl
  have hexists : (single text).contains ⟨"p"⟩ = true := rfl
  rw [Catalogue.addDirectory, if_pos hexists, hshort, hlong]
  exact congrArg Except.ok hyielded

/-! ## Two documents of one id -/

/-- An entity that coughs up a hairball of its own. -/
def twin (hairball : String) : EntityPrototype where
  id := "E"
  components := [.felinid { hairballPrototype := some hairball }]

/-- The document of such an entity. -/
def twinDocument (hairball : String) : Yaml.Value :=
  let text (content : String) : Yaml.Value := .atom (.string content)
  .mapping [(text "type", text "entity"), (text "id", text "E"), (text "components", .sequence
    [.mapping [(text "type", text "Felinid"), (text "hairballPrototype", text hairball)]])]

/-- The node of such a document. -/
def twinNode (hairball : String) : Yaml.Node :=
  let text (content : String) : Yaml.Node := .scalar none content .quoted
  .mapping none [(text "type", text "entity"), (text "id", text "E"),
    (text "components", .sequence none [.mapping none
      [(text "type", text "Felinid"), (text "hairballPrototype", text hairball)]])]

/-- The events of such a document. -/
def twinEvents (hairball : String) : List Yaml.Event :=
  let text (content : String) : Yaml.Event := .scalar {} content .quoted
  [.mappingStart {}, text "type", text "entity", text "id", text "E", text "components",
    .sequenceStart {}, .mappingStart {}, text "type", text "Felinid", text "hairballPrototype",
    text hairball, .mappingEnd, .sequenceEnd, .mappingEnd]

/-- The text of such a document in a list. -/
def twinItem (hairball : String) : String :=
  "- 'type': 'entity'\n  'id': 'E'\n  'components':\n  - 'type': 'Felinid'\n" ++
    "    'hairballPrototype': '" ++ hairball ++ "'\n"

/-- A text with two such documents, which differ in the hairball. -/
def twinText : String := twinItem "A" ++ twinItem "B"

/-- A directory with a file of that text. -/
def twins : FileTree where
  root := .directory [("p", .directory [("a.yml", .file twinText.toUTF8)])]

/-- What the directory holds. -/
def twinCatalogue : Catalogue where
  prototypes := [⟨.entity (twin "A"), ⟨"p/a.yml"⟩⟩, ⟨.entity (twin "B"), ⟨"p/a.yml"⟩⟩]

/-- The value of such a node is the document. No alias is spent on it. -/
theorem valueOf_twinNode (d : Yaml.Document) (hairball : String) (depth left : Nat) :
    (Yaml.valueOf d false (depth + 3) (twinNode hairball)).run left =
      .ok (twinDocument hairball, left) := by
  cbv

theorem valuesOf_twinNode (d : Yaml.Document) (depth left : Nat) (hairballs : List String) :
    (Yaml.valuesOf d (depth + 3) (hairballs.map twinNode)).run left =
      .ok (hairballs.map twinDocument, left) := by
  induction hairballs with
  | nil =>
    rw [List.map_nil, Yaml.valuesOf]
    rfl
  | cons hairball rest ih =>
    rw [List.map_cons, Yaml.valuesOf, StateT.run_bind, valueOf_twinNode]
    show ((Yaml.valuesOf d (depth + 3) (rest.map twinNode)).run left >>= _) = _
    rw [ih]
    rfl

/-- A list of such nodes stands for the list of the documents. -/
theorem value_twinNode (hairballs : List String) (size : Nat) :
    Yaml.Document.value ⟨some (.sequence none (hairballs.map twinNode)), [], size⟩ =
      .ok (.sequence (hairballs.map twinDocument)) := by
  let d : Yaml.Document := ⟨some (.sequence none (hairballs.map twinNode)), [], size⟩
  have hroot : (Yaml.valueOf d false 128 (.sequence none (hairballs.map twinNode))).run
      (100 * size) = .ok (.sequence (hairballs.map twinDocument), 100 * size) := by
    rw [Yaml.valueOf.eq_def]
    show ((Yaml.valuesOf d (124 + 3) (hairballs.map twinNode)).run (100 * size) >>= _) = _
    rw [valuesOf_twinNode]
    rfl
  show Except.map Prod.fst ((Yaml.valueOf d false 128 _).run (100 * size)) = _
  rw [hroot]
  rfl

theorem parse_twinText :
    Yaml.parse twinText = .ok (.sequence [twinDocument "A", twinDocument "B"]) := by
  have hevents : (Yaml.tokensOf twinText >>= Yaml.eventsOf) =
      .ok (.sequenceStart {} :: (twinEvents "A" ++ twinEvents "B" ++ [.sequenceEnd])) := by
    decide +kernel
  exact Yaml.parse_of_events hevents (value_twinNode ["A", "B"] 32) rfl

/-- Such a document is read as the entity. -/
theorem ofDocument?_twin (hairball : String) :
    Prototype.ofDocument? (twinDocument hairball) = some (.entity (twin hairball)) :=
  rfl

theorem readDocuments_twins :
    readDocuments ⟨"p/a.yml"⟩ 0 [twinDocument "A", twinDocument "B"] =
      .ok twinCatalogue.prototypes := by
  simp only [readDocuments, ofDocument?_twin, Except.map, twinCatalogue]

theorem addDirectory_twins : ({} : Catalogue).addDirectory twins ⟨"p"⟩ = .ok twinCatalogue :=
  addDirectory_single parse_twinText readDocuments_twins

/-- A server for the directory. -/
def twinServer : Server := ofCatalogue { prototypesDir := ⟨"p"⟩ } twinCatalogue

theorem bootstrap_twins : bootstrap twins { prototypesDir := ⟨"p"⟩ } = .ok twinServer := by
  rw [bootstrap, addDirectory_twins]
  rfl

theorem spawn_attaches_the_last_declared_twins :
    bootstrap twins { prototypesDir := ⟨"p"⟩ } = .ok twinServer ∧
      ∃ c, ({} : Catalogue).addDirectory twins ⟨"p"⟩ = .ok c ∧
        let t := twinServer.after [.spawn "E", .despawn ⟨1⟩]
        (t.spawn "E").answer = .ok t.nextUid ∧
          (t.spawn "E").server.felinids.rows =
            (c.declared "E").getLast?.elim t.felinids.rows (t.felinids.rows.insert t.nextUid) := by
  obtain ⟨c, hadded, hspawn⟩ := spawn_attaches_the_last_declared bootstrap_twins
  obtain ⟨hanswer, hrows, -⟩ := hspawn [.spawn "E", .despawn ⟨1⟩] "E"
  exact ⟨bootstrap_twins, c, hadded, hanswer, hrows⟩

/-- The catalogue answers with the component of the first document, and the server attaches that of
the second one. -/
theorem spawn_differs_from_felinidFor :
    ∃ c s, ({} : Catalogue).addDirectory twins ⟨"p"⟩ = .ok c ∧
      bootstrap twins { prototypesDir := ⟨"p"⟩ } = .ok s ∧
      (s.spawn "E").answer = .ok ⟨1⟩ ∧
      (s.spawn "E").server.felinids.rows.get? ⟨1⟩ = some { hairballPrototype := "B" } ∧
      c.felinidFor "E" = some { hairballPrototype := "A" } :=
  ⟨twinCatalogue, twinServer, addDirectory_twins, bootstrap_twins, by decide, by decide, by decide⟩

end Server

end Station
