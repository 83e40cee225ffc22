import Mathlib.Data.List.Forall2
import Station.Proofs.ContentDirectory
import Station.Proofs.References

/-!
# The order of texts

Documents and message keys may be read in any order: a report on them names the same findings in the
same order and counts the same. What a finding says depends on the documents as a collection, and on
the places of each key as a collection (`Finding.reordered`), and two ordered lists of findings with
the same kinds and ids match one by one (`Issue.forall₂_of_pairwise`).

Only the locations of a finding show the order of reading. Those of an unknown reference do not, as
the census keeps the files that refer to an id in a table.
-/

namespace Station

open Census (filesDefining Refers)

/-! ## Reading many texts -/

/-- The documents of a text with its path; a text that fails has none. -/
def Catalogue.loadedFrom (file : String × Path) : List LoadedPrototype :=
  (documentsIn file.2 (Yaml.parse file.1)).toOption.getD []

/-- The places at which a text with its path defines a key. -/
def LocaleIndex.placesFrom (key : String) (file : String × Path) : List KeyLocation :=
  ((Locale.definitions file.1).filter (·.1 = key)).map fun definition => ⟨file.2, definition.2⟩

/-- Records the keys of texts, one text after the other. -/
def LocaleIndex.addTexts (index : LocaleIndex) (files : List (String × Path)) : LocaleIndex :=
  files.foldl (fun index file => index.addText file.1 file.2) index

namespace CatalogueM

open Catalogue (loadedFrom)

/-- Loads a text and goes on if it fails. -/
def tryText (file : String × Path) : CatalogueM Unit :=
  try loadText Yaml.parse file.1 file.2 catch _ => pure ()

/-- Loads texts, one after the other. -/
def loadTexts (files : List (String × Path)) : CatalogueM Unit := do
  for file in files do
    tryText file

theorem run_tryText (file : String × Path) (c : Catalogue) :
    (tryText file).run c = .ok () { c with prototypes := c.prototypes ++ loadedFrom file } := by
  rw [tryText, run_tryCatch, run_loadText, loadedFrom]
  cases Catalogue.documentsIn file.2 (Yaml.parse file.1) with
  | ok loaded => rfl
  | error error => simp [Except.toOption]

/-- Texts add their documents behind each other. Those that fail leave no trace. -/
theorem run_loadTexts (files : List (String × Path)) (c : Catalogue) :
    (loadTexts files).run c =
      .ok () { c with prototypes := c.prototypes ++ files.flatMap loadedFrom } := by
  simp only [loadTexts, bind_pure_unit]
  induction files generalizing c with
  | nil => simp
  | cons file rest ih =>
    rw [List.forIn_cons]
    simp only [EStateM.run_bind, run_tryText]
    refine (ih _).trans ?_
    rw [List.flatMap_cons, List.append_assoc]

end CatalogueM

/-! ## Keys in another order -/

namespace LocaleIndex

variable {a b : LocaleIndex}

/-- Indices of the same keys, with the same places in whatever order. -/
structure SameUpToOrder (a b : LocaleIndex) : Prop where
  contains_iff : ∀ key, a.contains key = true ↔ b.contains key = true
  locations_perm : ∀ key, (a.locations key).Perm (b.locations key)

theorem SameUpToOrder.symm (h : SameUpToOrder a b) : SameUpToOrder b a :=
  ⟨fun key => (h.contains_iff key).symm, fun key => (h.locations_perm key).symm⟩

theorem contains_add (index : LocaleIndex) (key probe : String) (location : KeyLocation) :
    (index.add key location).contains probe = true ↔
      probe = key ∨ index.contains probe = true :=
  Table.contains_insert _ _ _ _

theorem contains_addText (index : LocaleIndex) (text : String) (path : Path) (key : String) :
    (index.addText text path).contains key = true ↔
      index.contains key = true ∨ ∃ definition ∈ Locale.definitions text, definition.1 = key := by
  rw [addText]
  induction Locale.definitions text generalizing index with
  | nil => simp
  | cons definition rest ih =>
    rw [List.foldl_cons, ih, contains_add, List.exists_mem_cons_iff, eq_comm (a := key)]
    tauto

theorem contains_addTexts (index : LocaleIndex) (files : List (String × Path)) (key : String) :
    (index.addTexts files).contains key = true ↔ index.contains key = true ∨
      ∃ file ∈ files, ∃ definition ∈ Locale.definitions file.1, definition.1 = key := by
  rw [addTexts]
  induction files generalizing index with
  | nil => simp
  | cons file rest ih =>
    rw [List.foldl_cons, ih, contains_addText, List.exists_mem_cons_iff, or_assoc]

theorem locations_addTexts (index : LocaleIndex) (files : List (String × Path)) (key : String) :
    (index.addTexts files).locations key =
      index.locations key ++ files.flatMap (placesFrom key) := by
  rw [addTexts]
  induction files generalizing index with
  | nil => simp
  | cons file rest ih =>
    rw [List.foldl_cons, ih, locations_addText, List.flatMap_cons, List.append_assoc, placesFrom]

/-- The order of the texts shows in the order of the places only. -/
theorem sameUpToOrder_addTexts (index : LocaleIndex) {files others : List (String × Path)}
    (h : files.Perm others) : SameUpToOrder (index.addTexts files) (index.addTexts others) where
  contains_iff := by
    intro key
    simp only [contains_addTexts, h.mem_iff]
  locations_perm := by
    intro key
    rw [locations_addTexts, locations_addTexts]
    exact (h.flatMap_right (placesFrom key)).append_left _

/-- A key with some places has the same places in the other index. -/
theorem SameUpToOrder.exists_get? (h : SameUpToOrder a b) {key : String}
    {places : List KeyLocation} (hplaces : a.keys.get? key = some places) :
    ∃ others, b.keys.get? key = some others ∧ places.Perm others := by
  have hcontains : b.contains key = true := by
    rw [← h.contains_iff, contains, Table.contains, hplaces]
    rfl
  obtain ⟨others, hothers⟩ := Option.isSome_iff_exists.1 hcontains
  refine ⟨others, hothers, ?_⟩
  have hperm := h.locations_perm key
  rwa [locations, locations, hplaces, hothers] at hperm

end LocaleIndex

/-! ## Findings in another order -/

/-- Findings that differ in the order of their locations at most. The files that refer to an unknown
id have one order. -/
structure Issue.SameUpToOrder (a b : Issue) : Prop where
  kind_eq : a.kind = b.kind
  id_eq : a.id = b.id
  locations_perm : a.locations.Perm b.locations
  locations_eq : a.kind = .unknownReference → a.locations = b.locations

theorem Census.filesDefining_perm {documents others : List LoadedPrototype}
    (h : documents.Perm others) (id : PrototypeId) :
    (filesDefining documents id).Perm (filesDefining others id) :=
  (h.filter _).map _

theorem Census.refers_perm {documents others : List LoadedPrototype} (h : documents.Perm others)
    (file : String) (id : PrototypeId) : Refers documents file id ↔ Refers others file id := by
  simp only [Refers, h.mem_iff]

/-- What is wrong with documents and keys is wrong with them in any order. -/
theorem Finding.reordered {documents others : List LoadedPrototype} {locale relocale : LocaleIndex}
    {issue : Issue} (hdocuments : documents.Perm others)
    (hlocale : locale.SameUpToOrder relocale) (h : Finding documents locale issue) :
    ∃ same, Finding others relocale same ∧ issue.SameUpToOrder same := by
  cases h with
  | @duplicateId id several =>
    have hfiles := Census.filesDefining_perm hdocuments id
    rw [hfiles.length_eq] at several
    exact ⟨_, .duplicateId several, ⟨rfl, rfl, hfiles, nofun⟩⟩
  | @unknownReference id files referred undefined ascending mem_iff =>
    simp only [hdocuments.mem_iff] at referred undefined
    simp only [Census.refers_perm hdocuments] at mem_iff
    exact ⟨_, .unknownReference referred undefined ascending mem_iff,
      ⟨rfl, rfl, .refl files, fun _ => rfl⟩⟩
  | @duplicateLocale key places recorded several =>
    obtain ⟨others, hothers, hperm⟩ := hlocale.exists_get? recorded
    rw [hperm.length_eq] at several
    exact ⟨_, .duplicateLocale hothers several, ⟨rfl, rfl, hperm.map _, nofun⟩⟩
  | @missingLocale id defined missing =>
    simp only [hdocuments.mem_iff] at defined
    rw [Bool.eq_false_iff, Ne, hlocale.contains_iff, ← Ne, ← Bool.eq_false_iff] at missing
    exact ⟨_, .missingLocale defined missing,
      ⟨rfl, rfl, Census.filesDefining_perm hdocuments id, nofun⟩⟩

namespace Issue

/-- A finding without its locations. -/
def bare (issue : Issue) : Issue := { issue with locations := [] }

theorem SameUpToOrder.bare_eq {a b : Issue} (h : a.SameUpToOrder b) : a.bare = b.bare := by
  rw [bare, bare, h.kind_eq, h.id_eq]

theorem Precedes.asymm {a b : Issue} (h : a.Precedes b) : ¬ b.Precedes a := by
  intro hback
  rcases h with hkind | ⟨hkind, hid⟩
  · rcases hback with hlt | ⟨heq, -⟩
    · exact Nat.lt_asymm hkind hlt
    · rw [heq] at hkind
      exact Nat.lt_irrefl _ hkind
  · rcases hback with hlt | ⟨-, hlt⟩
    · rw [hkind] at hlt
      exact Nat.lt_irrefl _ hlt
    · exact String.lt_asymm hid hlt

instance : Std.Antisymm Precedes := ⟨fun _ _ h hback => absurd hback h.asymm⟩

instance : Std.Irrefl Precedes := ⟨fun _ h => h.asymm h⟩

/-- Two lists in the order of findings that have the same findings up to their locations have them
at the same places. -/
theorem map_bare_eq {l m : List Issue} (hl : l.Pairwise Precedes) (hm : m.Pairwise Precedes)
    (hlm : ∀ a ∈ l, ∃ b ∈ m, a.SameUpToOrder b) (hml : ∀ b ∈ m, ∃ a ∈ l, b.SameUpToOrder a) :
    l.map bare = m.map bare := by
  -- the order does not look at locations
  have hlbare : (l.map bare).Pairwise Precedes := List.Pairwise.map _ (fun _ _ h => h) hl
  have hmbare : (m.map bare).Pairwise Precedes := List.Pairwise.map _ (fun _ _ h => h) hm
  refine List.Pairwise.eq_of_mem_iff hlbare hmbare fun issue => ?_
  rw [List.mem_map, List.mem_map]
  constructor
  · rintro ⟨a, ha, rfl⟩
    obtain ⟨b, hb, hsame⟩ := hlm a ha
    exact ⟨b, hb, hsame.bare_eq.symm⟩
  · rintro ⟨b, hb, rfl⟩
    obtain ⟨a, ha, hsame⟩ := hml b hb
    exact ⟨a, ha, hsame.bare_eq.symm⟩

/-- Such lists match one by one. -/
theorem forall₂_of_pairwise {l m : List Issue} (hl : l.Pairwise Precedes)
    (hm : m.Pairwise Precedes) (hlm : ∀ a ∈ l, ∃ b ∈ m, a.SameUpToOrder b)
    (hml : ∀ b ∈ m, ∃ a ∈ l, b.SameUpToOrder a) : List.Forall₂ SameUpToOrder l m := by
  have hbare := map_bare_eq hl hm hlm hml
  have hlength : l.length = m.length := by simpa using congrArg List.length hbare
  have hmatch : List.Forall₂ (fun a b : Issue => a.bare = b.bare) l m :=
    (List.forall₂_map_left_iff.1 (List.forall₂_map_right_iff.1
      (hbare ▸ List.forall₂_same.2 fun _ _ => rfl)))
  refine List.forall₂_iff_zip.2 ⟨hlength, fun {a b} hab => ?_⟩
  have hsame : a.bare = b.bare := (List.forall₂_iff_zip.1 hmatch).2 hab
  obtain ⟨ha, hb⟩ := List.of_mem_zip hab
  obtain ⟨other, hother, hup⟩ := hlm a ha
  -- findings of one list that differ do so without their locations
  have hnodup : (m.map bare).Nodup :=
    List.Pairwise.map _ (fun a b h heq => h.ne (by injection heq; simp [*])) hm
  have hinj := List.inj_on_of_nodup_map hnodup hother hb (hup.bare_eq.symm.trans hsame)
  rw [← hinj]
  exact hup

end Issue

/-! ## Reports -/

/-- Reports that differ in the order of locations at most. -/
structure Report.SameUpToOrder (r s : Report) : Prop where
  issues : List.Forall₂ Issue.SameUpToOrder r.issues s.issues
  prototypeIds_eq : r.prototypeIds = s.prototypeIds
  referencedIds_eq : r.referencedIds = s.referencedIds
  localeKeys_eq : r.localeKeys = s.localeKeys
  skippedFiles_eq : r.skippedFiles = s.skippedFiles

/-- Findings that match one by one have their kinds and ids in the same order. -/
theorem Report.SameUpToOrder.keys_eq {r s : Report} (h : r.SameUpToOrder s) :
    r.issues.map (fun issue => (issue.kind, issue.id)) =
      s.issues.map fun issue => (issue.kind, issue.id) := by
  refine List.forall₂_eq_eq_eq ▸ ?_
  rw [List.forall₂_map_left_iff, List.forall₂_map_right_iff]
  exact h.issues.imp fun a b hab => by rw [hab.kind_eq, hab.id_eq]

/-- A report does not show the order of documents and of places, but in locations. -/
theorem Report.of_sameUpToOrder {c d : Catalogue} {locale relocale : LocaleIndex}
    (hdocuments : c.prototypes.Perm d.prototypes) (herrors : c.errors = d.errors)
    (hlocale : locale.SameUpToOrder relocale) :
    (Report.of c locale).SameUpToOrder (Report.of d relocale) where
  issues := by
    refine Issue.forall₂_of_pairwise (pairwise_issues c locale) (pairwise_issues d relocale) ?_ ?_
    · intro a ha
      obtain ⟨b, hb, hab⟩ := (mem_issues_iff.1 ha).reordered hdocuments hlocale
      exact ⟨b, mem_issues_iff.2 hb, hab⟩
    · intro b hb
      obtain ⟨a, ha, hba⟩ := (mem_issues_iff.1 hb).reordered hdocuments.symm hlocale.symm
      exact ⟨a, mem_issues_iff.2 ha, hba⟩
  prototypeIds_eq := by
    rw [prototypeIds_eq, prototypeIds_eq]
    simp only [hdocuments.mem_iff]
  referencedIds_eq := by
    rw [referencedIds_eq, referencedIds_eq]
    simp only [hdocuments.mem_iff]
  localeKeys_eq := by
    have hkeys : {key | locale.keys.contains key = true} =
        {key | relocale.keys.contains key = true} := by
      ext key
      exact hlocale.contains_iff key
    show locale.keys.size = relocale.keys.size
    rw [Table.size_eq_ncard, hkeys, ← Table.size_eq_ncard]
  skippedFiles_eq := by
    rw [of, of, herrors]

namespace CatalogueM

open Catalogue (loadedFrom)

/-- Whatever the order in which files are loaded, those that fail among them, and locale texts are
indexed, the report is the same up to the order of locations: the kinds and ids of the findings
come in one order, the counts are the same, the files that refer to an unknown id are the same
list, and the locations of every other finding are the same collection. -/
theorem order_of_reading_shows_in_locations_only (c : Catalogue) (index : LocaleIndex)
    {files reordered texts shuffled : List (String × Path)} (hfiles : files.Perm reordered)
    (htexts : texts.Perm shuffled) :
    ∃ d e, (loadTexts files).run c = .ok () d ∧ (loadTexts reordered).run c = .ok () e ∧
      let r := Report.of d (index.addTexts texts)
      let s := Report.of e (index.addTexts shuffled)
      r.issues.map (fun issue => (issue.kind, issue.id)) =
        s.issues.map (fun issue => (issue.kind, issue.id)) ∧
      r.SameUpToOrder s := by
  refine ⟨_, _, run_loadTexts files c, run_loadTexts reordered c, ?_⟩
  intro r s
  have hdocuments := (hfiles.flatMap_right Catalogue.loadedFrom).append_left c.prototypes
  have hsame : r.SameUpToOrder s :=
    Report.of_sameUpToOrder hdocuments rfl (index.sameUpToOrder_addTexts htexts)
  exact ⟨hsame.keys_eq, hsame⟩

/-! ## Two files of one entity -/

/-- An unfinished text adds nothing. -/
theorem loadedFrom_unfinished (path : Path) : loadedFrom ("'", path) = [] := by
  have htokens : (Yaml.tokensOf "'").isOk = false := by decide +kernel
  have hparse : ∃ problem, Yaml.parse "'" = .error problem := by
    rw [Yaml.parse, Yaml.Document.ofText]
    cases h : Yaml.tokensOf "'" with
    | error problem => exact ⟨problem, rfl⟩
    | ok tokens =>
      rw [h] at htokens
      cases htokens
  obtain ⟨problem, hparse⟩ := hparse
  simp only [loadedFrom, hparse, Catalogue.documentsIn, Except.toOption, Option.getD_none]

/-- A text with an entity adds it. -/
theorem loadedFrom_loner (path : Path) :
    loadedFrom (Server.twinItem "E", path) = [⟨.entity (Server.twin "E"), path⟩] := by
  have hdocuments : Catalogue.documentsIn path (.ok (.sequence [Server.twinDocument "E"])) =
      .ok [⟨.entity (Server.twin "E"), path⟩] := by
    simp only [Catalogue.documentsIn, documentsOf?, readDocuments, Server.ofDocument?_twin,
      Except.map]
  rw [loadedFrom, Server.parse_loner, hdocuments]
  simp only [Except.toOption, Option.getD_some]

/-- The report on files that all define one entity names them in their order. -/
theorem duplicateId_loner {c : Catalogue} (paths : List Path)
    (hprototypes : c.prototypes = paths.map fun path => ⟨.entity (Server.twin "E"), path⟩)
    (hlength : 2 ≤ paths.length) :
    ⟨.duplicateId, "E", paths.map Path.text⟩ ∈ (Report.of c {}).issues := by
  have hfiles : filesDefining c.prototypes "E" = paths.map Path.text := by
    rw [hprototypes, filesDefining, List.filter_eq_self.2, List.map_map]
    · rfl
    · simp [Prototype.id?, Server.twin]
  rw [Report.mem_issues_iff, ← hfiles]
  apply Finding.duplicateId
  rw [hfiles, List.length_map]
  exact hlength

/-- The files of an entity are listed in the order in which they were read. -/
theorem order_of_reading_shows_in_locations_only_swapped :
    let first := (Server.twinItem "E", ⟨"a.yml"⟩)
    let second := (Server.twinItem "E", ⟨"b.yml"⟩)
    let unfinished := ("'", ⟨"x.yml"⟩)
    [first, unfinished, second].Perm [second, first, unfinished] ∧
      ∃ d e, (loadTexts [first, unfinished, second]).run {} = .ok () d ∧
        (loadTexts [second, first, unfinished]).run {} = .ok () e ∧
        (Report.of d {}).SameUpToOrder (Report.of e {}) ∧
        ⟨.duplicateId, "E", ["a.yml", "b.yml"]⟩ ∈ (Report.of d {}).issues ∧
        ⟨.duplicateId, "E", ["b.yml", "a.yml"]⟩ ∈ (Report.of e {}).issues := by
  intro first second unfinished
  have hperm : [first, unfinished, second].Perm [second, first, unfinished] := by
    show ([first, unfinished] ++ [second]).Perm ([second] ++ [first, unfinished])
    exact List.perm_append_comm
  obtain ⟨d, e, hd, he, -, hsame⟩ :=
    order_of_reading_shows_in_locations_only {} {} hperm (List.Perm.refl [])
  have hread : ∀ files catalogue, (loadTexts files).run {} = .ok () catalogue →
      catalogue.prototypes = files.flatMap loadedFrom := by
    intro files catalogue h
    rw [run_loadTexts] at h
    cases h
    rfl
  refine ⟨hperm, d, e, hd, he, hsame, ?_, ?_⟩
  · apply duplicateId_loner [⟨"a.yml"⟩, ⟨"b.yml"⟩]
    · rw [hread _ d hd]
      simp [first, second, unfinished, loadedFrom_loner, loadedFrom_unfinished]
    · decide
  · apply duplicateId_loner [⟨"b.yml"⟩, ⟨"a.yml"⟩]
    · rw [hread _ e he]
      simp [first, second, unfinished, loadedFrom_loner, loadedFrom_unfinished]
    · decide

end CatalogueM

end Station
