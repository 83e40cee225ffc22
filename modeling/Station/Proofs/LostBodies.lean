import Station.Proofs.Documents
import Station.Proofs.ReportOrder

/-!
# Documents that lose their bodies

A document whose body stops fitting its type is kept by its type and its id, under the same file
(`Yaml.Value.Decays`, `readDocuments_of_decays`). All that a report loses with the bodies is what
they referred to.

`LoadedPrototype.Trims` says what is needed of two documents for that: the same file, the same id,
and no reference that was not there before. Such documents define the same ids in the same files, so
nothing else that was wrong is hidden (`Finding.after_of_trims`) and nothing new is wrong
(`Finding.before_of_trims`).
-/

namespace Station

open Census (filesDefining Refers)

/-! ## Losing a body -/

/-- A document without its body: the type and the id are left. -/
def Prototype.withoutBody (p : Prototype) : Prototype := .other p.kind p.id?

/-- A loaded document without its body. -/
def LoadedPrototype.withoutBody (loaded : LoadedPrototype) : LoadedPrototype :=
  { loaded with prototype := loaded.prototype.withoutBody }

/-- Documents of which those at the chosen places, counted from zero, have lost their bodies. -/
def withoutBodies (chosen : Nat → Bool) : List LoadedPrototype → List LoadedPrototype
  | [] => []
  | loaded :: rest =>
    (if chosen 0 then loaded.withoutBody else loaded) ::
      withoutBodies (fun place => chosen (place + 1)) rest

/-- Places are chosen one later, and the first one is chosen or not. -/
def choosingFirst (first : Bool) (chosen : Nat → Bool) : Nat → Bool
  | 0 => first
  | place + 1 => chosen place

/-- A catalogue in which the documents at the chosen places have lost their bodies. -/
def Catalogue.withoutBodies (c : Catalogue) (chosen : Nat → Bool) : Catalogue :=
  { c with prototypes := Station.withoutBodies chosen c.prototypes }

/-- Of two documents the second one has the file and the id of the first, and refers to nothing
else. -/
structure LoadedPrototype.Trims (loaded trimmed : LoadedPrototype) : Prop where
  path_eq : trimmed.path = loaded.path
  id?_eq : trimmed.prototype.id? = loaded.prototype.id?
  references_subset : trimmed.prototype.references ⊆ loaded.prototype.references

theorem LoadedPrototype.trims_refl (loaded : LoadedPrototype) : loaded.Trims loaded :=
  ⟨rfl, rfl, List.Subset.refl _⟩

theorem LoadedPrototype.trims_withoutBody (loaded : LoadedPrototype) :
    loaded.Trims loaded.withoutBody :=
  ⟨rfl, rfl, List.nil_subset _⟩

theorem forall₂_trims_withoutBodies (chosen : Nat → Bool) (documents : List LoadedPrototype) :
    List.Forall₂ LoadedPrototype.Trims documents (withoutBodies chosen documents) := by
  induction documents generalizing chosen with
  | nil => exact .nil
  | cons loaded rest ih =>
    refine .cons ?_ (ih _)
    split
    · exact loaded.trims_withoutBody
    · exact loaded.trims_refl

/-! ## What is read of a body that does not fit -/

/-- What becomes of a document: it stays as it is, or it keeps the type and the id that are written
there and no longer fits the type. -/
inductive Yaml.Value.Decays (v : Value) : Value → Prop
  /-- It stays as it is. -/
  | same : Decays v v
  /-- It no longer fits. -/
  | unfit {w : Value} (keys : v.KeysUntagged) (type_eq : w.typeName? = v.typeName?)
      (id_eq : w.writtenId? = v.writtenId?)
      (unfit : ∀ kind ∈ v.typeName?, Prototype.ofValue? kind w = none) : Decays v w

/-- A document that no longer fits its type is read as what it was, without the body. -/
theorem Prototype.ofDocument?_of_unfit {v w : Yaml.Value} {p : Prototype}
    (hread : ofDocument? v = some p) (hkeys : v.KeysUntagged)
    (htype : w.typeName? = v.typeName?) (hid : w.writtenId? = v.writtenId?)
    (hunfit : ∀ kind ∈ v.typeName?, ofValue? kind w = none) :
    ofDocument? w = some p.withoutBody := by
  have hp := keeps_of_ofDocument? hread
  cases hw : ofDocument? w with
  | none =>
    rw [ofDocument?_eq_none_iff, htype, hp.kind_eq] at hw
    cases hw
  | some q =>
    have hq := keeps_of_ofDocument? hw
    have hkind : q.kind = p.kind :=
      Option.some.inj (hq.kind_eq.symm.trans (htype.trans hp.kind_eq))
    have huntyped := hq.of_not_fits (hkind ▸ hunfit _ hp.kind_eq)
    rw [huntyped, hkind, withoutBody, hp.id?_eq hkeys, ← hid]
    rfl

/-- Documents whose bodies stop fitting are loaded from the same file without their bodies. -/
theorem readDocuments_of_decays {vs ws : List Yaml.Value} (h : List.Forall₂ Yaml.Value.Decays vs ws)
    {path : Path} {index : Nat} {loaded : List LoadedPrototype}
    (hread : readDocuments path index vs = .ok loaded) :
    ∃ chosen, readDocuments path index ws = .ok (withoutBodies chosen loaded) := by
  induction h generalizing index loaded with
  | nil =>
    obtain rfl := Except.ok.inj hread
    exact ⟨fun _ => false, rfl⟩
  | @cons v w vs ws hdecays _ ih =>
    rw [readDocuments] at hread
    cases hv : Prototype.ofDocument? v with
    | none =>
      rw [hv] at hread
      cases hread
    | some p =>
      cases hlater : readDocuments path (index + 1) vs with
      | error error =>
        rw [hv, hlater] at hread
        cases hread
      | ok later =>
        rw [hv, hlater] at hread
        obtain rfl := Except.ok.inj hread
        obtain ⟨chosen, hrest⟩ := ih hlater
        cases hdecays with
        | same =>
          refine ⟨choosingFirst false chosen, ?_⟩
          rw [readDocuments, hv, hrest]
          rfl
        | unfit keys type_eq id_eq unfit =>
          refine ⟨choosingFirst true chosen, ?_⟩
          rw [readDocuments, Prototype.ofDocument?_of_unfit hv keys type_eq id_eq unfit, hrest]
          rfl

/-! ## Trimmed documents -/

namespace Census

variable {documents trimmed : List LoadedPrototype}
  (h : List.Forall₂ LoadedPrototype.Trims documents trimmed)

include h

theorem filesDefining_of_trims (id : PrototypeId) :
    filesDefining trimmed id = filesDefining documents id := by
  induction h with
  | nil => rfl
  | cons hhead _ ih =>
    simp only [filesDefining, List.filter_cons, hhead.id?_eq] at ih ⊢
    split
    · rw [List.map_cons, List.map_cons, ih, hhead.path_eq]
    · exact ih

theorem exists_id?_iff_of_trims (id : PrototypeId) :
    (∃ loaded ∈ trimmed, loaded.prototype.id? = some id) ↔
      ∃ loaded ∈ documents, loaded.prototype.id? = some id := by
  rw [← filesDefining_ne_nil_iff, filesDefining_of_trims h, filesDefining_ne_nil_iff]

/-- Nothing refers to an id that did not before. -/
theorem refers_of_trims {file : String} {id : PrototypeId} (hrefers : Refers trimmed file id) :
    Refers documents file id := by
  obtain ⟨loaded, hloaded, hfile, hreference⟩ := hrefers
  induction h with
  | nil => cases hloaded
  | @cons a b _ _ hhead _ ih =>
    rcases List.mem_cons.1 hloaded with rfl | hlater
    · exact ⟨a, List.mem_cons_self, by rw [← hhead.path_eq, hfile],
        hhead.references_subset hreference⟩
    · obtain ⟨earlier, hearlier, hrest⟩ := ih hlater
      exact ⟨earlier, List.mem_cons_of_mem _ hearlier, hrest⟩

end Census

/-- A finding that was there before, with the same locations, or, if it is about an unknown
reference, with some of them. -/
structure Issue.Narrows (issue earlier : Issue) : Prop where
  kind_eq : issue.kind = earlier.kind
  id_eq : issue.id = earlier.id
  locations_sublist : issue.locations.Sublist earlier.locations
  locations_eq : issue.kind ≠ .unknownReference → issue.locations = earlier.locations

theorem Issue.narrows_refl (issue : Issue) : issue.Narrows issue :=
  ⟨rfl, rfl, .refl _, fun _ => rfl⟩

theorem Issue.Narrows.eq {issue earlier : Issue} (h : issue.Narrows earlier)
    (hkind : issue.kind ≠ .unknownReference) : issue = earlier := by
  have hlocations := h.locations_eq hkind
  obtain ⟨hkind, hid, -, -⟩ := h
  cases issue
  cases earlier
  simp_all

/-- Findings keep their order when they are narrowed. -/
theorem Issue.Narrows.precedes {a b earlier before : Issue} (ha : a.Narrows earlier)
    (hb : b.Narrows before) (h : a.Precedes b) : earlier.Precedes before := by
  rw [Precedes, ha.kind_eq, ha.id_eq, hb.kind_eq, hb.id_eq] at h
  exact h

/-- If each finding of an ordered list narrows one of another ordered list, then the first list
comes from the second one by leaving findings out and narrowing the others. -/
theorem Issue.sublistForall₂_of_pairwise {l m : List Issue} (hl : l.Pairwise Precedes)
    (hm : m.Pairwise Precedes) (hlm : ∀ a ∈ l, ∃ b ∈ m, a.Narrows b) :
    List.SublistForall₂ Narrows l m := by
  induction m generalizing l with
  | nil =>
    cases l with
    | nil => exact .nil
    | cons a rest =>
      obtain ⟨b, hb, -⟩ := hlm a List.mem_cons_self
      cases hb
  | cons b later ih =>
    cases l with
    | nil => exact .nil
    | cons a rest =>
      obtain ⟨ha, hrest⟩ := List.pairwise_cons.1 hl
      obtain ⟨hb, hlater⟩ := List.pairwise_cons.1 hm
      -- a finding that comes after one that narrows something in `later` does not narrow `b`
      have hskip : ∀ c d, c.Narrows b → a.Precedes c → a.Narrows d → d ∉ later := by
        intro c d hc hac hd hmem
        exact (hd.precedes hc hac).asymm (hb d hmem)
      obtain ⟨d, hd, had⟩ := hlm a List.mem_cons_self
      rcases List.mem_cons.1 hd with rfl | hd
      · refine .cons had (ih hrest hlater fun c hc => ?_)
        obtain ⟨e, he, hce⟩ := hlm c (List.mem_cons_of_mem _ hc)
        rcases List.mem_cons.1 he with rfl | he
        · exact absurd rfl (had.precedes hce (ha c hc)).ne
        · exact ⟨e, he, hce⟩
      · refine .cons_right (ih hl hlater fun c hc => ?_)
        rcases List.mem_cons.1 hc with rfl | hc
        · exact ⟨d, hd, had⟩
        · obtain ⟨e, he, hce⟩ := hlm c (List.mem_cons_of_mem _ hc)
          rcases List.mem_cons.1 he with heq | he
          · exact absurd hd (hskip c d (heq ▸ hce) (ha c hc) had)
          · exact ⟨e, he, hce⟩

namespace Finding

variable {documents trimmed : List LoadedPrototype} {locale : LocaleIndex} {issue : Issue}
  (h : List.Forall₂ LoadedPrototype.Trims documents trimmed)

include h

/-- Whatever is wrong with trimmed documents was wrong before. -/
theorem before_of_trims (hfinding : Finding trimmed locale issue) :
    ∃ earlier, Finding documents locale earlier ∧ issue.Narrows earlier := by
  cases hfinding with
  | @duplicateId id several =>
    rw [Census.filesDefining_of_trims h] at several ⊢
    exact ⟨_, .duplicateId several, Issue.narrows_refl _⟩
  | @unknownReference id files referred undefined ascending mem_iff =>
    obtain ⟨loaded, hloaded, hreference⟩ := referred
    have hrefers : Refers trimmed loaded.path.text id := ⟨loaded, hloaded, rfl, hreference⟩
    obtain ⟨other, hother, -, hbefore⟩ := Census.refers_of_trims h hrefers
    have hundefined : ∀ other ∈ documents, other.prototype.id? ≠ some id := by
      have hnone := mt (Census.exists_id?_iff_of_trims h id).2
      simp only [not_exists, not_and] at hnone
      exact hnone undefined
    obtain ⟨earlier, hearlier⟩ : ∃ files, Finding documents locale ⟨.unknownReference, id, files⟩ :=
      Report.exists_unknownReference hother hbefore hundefined
    cases hearlier with
    | unknownReference referred' undefined' ascending' mem_iff' =>
      refine ⟨_, .unknownReference referred' undefined' ascending' mem_iff', rfl, rfl, ?_, nofun⟩
      -- both lists are in order, so one that has no other files is part of the other one
      have hsubset : files ⊆ earlier := fun file hfile =>
        (mem_iff' file).2 (Census.refers_of_trims h ((mem_iff file).1 hfile))
      exact List.sublist_of_subperm_of_pairwise (List.subperm_of_subset ascending.nodup hsubset)
        ascending ascending'
  | duplicateLocale recorded several =>
    exact ⟨_, .duplicateLocale recorded several, Issue.narrows_refl _⟩
  | @missingLocale id defined missing =>
    rw [Census.exists_id?_iff_of_trims h] at defined
    rw [Census.filesDefining_of_trims h]
    exact ⟨_, .missingLocale defined missing, Issue.narrows_refl _⟩

/-- Whatever was wrong before, unknown references apart, is wrong with trimmed documents. -/
theorem after_of_trims (hfinding : Finding documents locale issue)
    (hkind : issue.kind ≠ .unknownReference) : Finding trimmed locale issue := by
  cases hfinding with
  | @duplicateId id several =>
    rw [← Census.filesDefining_of_trims h] at several ⊢
    exact .duplicateId several
  | unknownReference => exact absurd rfl hkind
  | duplicateLocale recorded several => exact .duplicateLocale recorded several
  | @missingLocale id defined missing =>
    rw [← Census.exists_id?_iff_of_trims h] at defined
    rw [← Census.filesDefining_of_trims h]
    exact .missingLocale defined missing

end Finding

/-! ## Reports -/

namespace Report

section Trims

variable {c d : Catalogue} (locale : LocaleIndex)
  (h : List.Forall₂ LoadedPrototype.Trims c.prototypes d.prototypes)

include h

theorem ofKind_of_trims {kind : IssueKind} (hkind : kind ≠ .unknownReference) :
    (of d locale).ofKind kind = (of c locale).ofKind kind := by
  refine List.Pairwise.eq_of_mem_iff ((pairwise_issues d locale).filter _)
    ((pairwise_issues c locale).filter _) fun issue => ?_
  rw [ofKind, ofKind, List.mem_filter, List.mem_filter, mem_issues_iff, mem_issues_iff]
  refine and_congr_left fun hissue => ?_
  have hother : issue.kind ≠ .unknownReference := beq_iff_eq.1 hissue ▸ hkind
  constructor
  · intro hfinding
    obtain ⟨earlier, hearlier, hnarrows⟩ := hfinding.before_of_trims h
    rw [hnarrows.eq hother]
    exact hearlier
  · intro hfinding
    exact hfinding.after_of_trims h hother

theorem sublistForall₂_issues_of_trims :
    List.SublistForall₂ Issue.Narrows (of d locale).issues (of c locale).issues := by
  refine Issue.sublistForall₂_of_pairwise (pairwise_issues d locale) (pairwise_issues c locale)
    fun issue hissue => ?_
  obtain ⟨earlier, hearlier, hnarrows⟩ := (mem_issues_iff.1 hissue).before_of_trims h
  exact ⟨earlier, mem_issues_iff.2 hearlier, hnarrows⟩

theorem prototypeIds_of_trims : (of d locale).prototypeIds = (of c locale).prototypeIds := by
  rw [prototypeIds_eq, prototypeIds_eq]
  simp only [Census.exists_id?_iff_of_trims h]

end Trims

/-- Whichever documents lose their bodies, a report on them hides no more than references: the
findings of the other kinds and the counts of ids and keys are the same, and the findings that are
left are earlier ones in their order, those about unknown references with some of their locations.
Documents that stop fitting their types lose their bodies when their file is loaded. -/
theorem lost_bodies_hide_references_only (c : Catalogue) (locale : LocaleIndex)
    (chosen : Nat → Bool) :
    let r := of c locale
    let s := of (c.withoutBodies chosen) locale
    (∀ kind, kind ≠ .unknownReference → s.ofKind kind = r.ofKind kind) ∧
      s.prototypeIds = r.prototypeIds ∧ s.localeKeys = r.localeKeys ∧
      List.SublistForall₂ Issue.Narrows s.issues r.issues ∧
      ∀ path vs ws loaded, List.Forall₂ Yaml.Value.Decays vs ws →
        readDocuments path 0 vs = .ok loaded →
        ∃ chosen, readDocuments path 0 ws = .ok (withoutBodies chosen loaded) := by
  intro r s
  have htrims := forall₂_trims_withoutBodies chosen c.prototypes
  refine ⟨fun kind hkind => ofKind_of_trims locale htrims hkind,
    prototypeIds_of_trims locale htrims, rfl, sublistForall₂_issues_of_trims locale htrims, ?_⟩
  intro path vs ws loaded hdecays hread
  exact readDocuments_of_decays hdecays hread

/-! ### Two strays -/

/-- An entity whose parent is nowhere. -/
def stray : Prototype := .entity { id := "E", parents := some (.one "P") }

/-- Two files define it. -/
def strays : Catalogue := { prototypes := [⟨stray, ⟨"a.yml"⟩⟩, ⟨stray, ⟨"b.yml"⟩⟩] }

/-- Its document, with some more entries. -/
def strayDocument (more : List (Yaml.Value × Yaml.Value)) : Yaml.Value :=
  .mapping ([(.string "type", .string "entity"), (.string "id", .string "E"),
    (.string "parent", .string "P")] ++ more)

/-- The first of the two documents gets a list of components that is no list. The report goes on to
name both files for the id, which is defined twice, and only the second one for the parent. -/
theorem lost_bodies_hide_references_only_strays :
    let s := of (strays.withoutBodies fun place => place == 0) {}
    (of strays {}).issues = [⟨.duplicateId, "E", ["a.yml", "b.yml"]⟩,
        ⟨.unknownReference, "P", ["a.yml", "b.yml"]⟩, ⟨.missingLocale, "E", ["a.yml", "b.yml"]⟩] ∧
      s.ofKind .duplicateId = [⟨.duplicateId, "E", ["a.yml", "b.yml"]⟩] ∧
      s.ofKind .unknownReference = [⟨.unknownReference, "P", ["b.yml"]⟩] ∧
      List.SublistForall₂ Issue.Narrows s.issues (of strays {}).issues ∧
      List.Forall₂ Yaml.Value.Decays [strayDocument []]
        [strayDocument [(.string "components", .string "oops")]] ∧
      readDocuments ⟨"a.yml"⟩ 0 [strayDocument []] = .ok [⟨stray, ⟨"a.yml"⟩⟩] ∧
      ∃ chosen, readDocuments ⟨"a.yml"⟩ 0 [strayDocument [(.string "components", .string "oops")]] =
        .ok (withoutBodies chosen [⟨stray, ⟨"a.yml"⟩⟩]) := by
  intro s
  obtain ⟨hkept, -, -, hnarrows, hloaded⟩ :=
    lost_bodies_hide_references_only strays {} fun place => place == 0
  have hissues : (of strays {}).issues = [⟨.duplicateId, "E", ["a.yml", "b.yml"]⟩,
      ⟨.unknownReference, "P", ["a.yml", "b.yml"]⟩,
      ⟨.missingLocale, "E", ["a.yml", "b.yml"]⟩] := by
    rw [issues_eq]
    rfl
  have hkeys : (strayDocument []).KeysUntagged := by
    intro entries h
    cases h
    simp [Yaml.Value.isTagged]
  have hunfit : ∀ kind ∈ (strayDocument []).typeName?,
      Prototype.ofValue? kind (strayDocument [(.string "components", .string "oops")]) = none := by
    intro kind hkind
    cases hkind
    rfl
  have hdecays : List.Forall₂ Yaml.Value.Decays [strayDocument []]
      [strayDocument [(.string "components", .string "oops")]] :=
    .cons (.unfit hkeys rfl rfl hunfit) .nil
  have hread : readDocuments ⟨"a.yml"⟩ 0 [strayDocument []] = .ok [⟨stray, ⟨"a.yml"⟩⟩] := rfl
  refine ⟨hissues, ?_, ?_, hnarrows, hdecays, hread, hloaded _ _ _ _ hdecays hread⟩
  · rw [hkept _ (by decide), ofKind, hissues]
    rfl
  · rw [ofKind, issues_eq]
    rfl

end Report

end Station
