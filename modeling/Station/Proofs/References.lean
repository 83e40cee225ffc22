import Station.Proofs.Report
import Station.Proofs.Uses

/-!
# References at run time

The report looks at what documents refer to. A server looks at the components and the filters that
it makes of the same documents, and does not ask what they refer to. But it makes them of nothing
else: if every reference is answered (`Catalogue.Resolves`, which is what a report without unknown
references says), then so is whatever a component or a filter points at, unless it is a default.
-/

namespace Station

variable {c : Catalogue} {id : PrototypeId}

/-! ## Documents -/

namespace Catalogue

/-- Some document has an id. -/
def Defines (c : Catalogue) (id : PrototypeId) : Prop := ∃ p ∈ c.documents, p.id? = some id

/-- Every reference is answered by some document. -/
def Resolves (c : Catalogue) : Prop := ∀ p ∈ c.documents, ∀ id ∈ p.references, c.Defines id

end Catalogue

/-- A report without unknown references is one on documents whose references are all answered. -/
theorem Report.resolves_iff (c : Catalogue) (locale : LocaleIndex) :
    (∀ issue ∈ (of c locale).issues, issue.kind ≠ .unknownReference) ↔ c.Resolves := by
  constructor
  · intro hnone p hp id hreference
    obtain ⟨loaded, hloaded, rfl⟩ := List.mem_map.1 hp
    by_contra hundefined
    obtain ⟨files, hfinding⟩ :
        ∃ files, Finding c.prototypes locale ⟨.unknownReference, id, files⟩ :=
      exists_unknownReference hloaded hreference
        fun other hother hid => hundefined ⟨_, List.mem_map_of_mem hother, hid⟩
    exact hnone _ (mem_issues_iff.2 hfinding) rfl
  · intro hresolves issue hissue hkind
    cases mem_issues_iff.1 hissue with
    | unknownReference referred undefined =>
      obtain ⟨loaded, hloaded, hreference⟩ := referred
      obtain ⟨p, hp, hid⟩ := hresolves _ (List.mem_map_of_mem hloaded) _ hreference
      obtain ⟨other, hother, rfl⟩ := List.mem_map.1 hp
      exact undefined other hother hid
    | duplicateId | duplicateLocale | missingLocale => cases hkind

namespace Prototype

/-- A document refers to what the component that it declares points at. -/
theorem mem_references_of_felinidUnder? {p : Prototype} {o : FelinidOverrides}
    (h : p.felinidUnder? id = some o) {reference : PrototypeId} (href : reference ∈ o.references) :
    reference ∈ p.references := by
  cases p with
  | entity entity =>
    rw [felinidUnder?] at h
    split at h
    · simp [references, h, href]
    · cases h
  | job | soundCollection | mindFilter | other => cases h

/-- A document refers to the jobs that it lists for a mind filter, and to nothing else. -/
theorem references_of_jobsUnder? {p : Prototype} {jobs : List JobId}
    (h : p.jobsUnder? id = some jobs) : p.references = jobs := by
  cases p with
  | mindFilter filter =>
    rw [jobsUnder?] at h
    split at h
    · exact Option.some.inj h
    · cases h
  | job | soundCollection | entity | other => cases h

end Prototype

/-! ## Components -/

/-- What a felinid component points at is the default or defined by some document. -/
structure Felinid.Anchored (c : Catalogue) (f : Felinid) : Prop where
  hairballPrototype : f.hairballPrototype = "Hairball" ∨ c.Defines f.hairballPrototype
  hairballAction : f.hairballAction = "ActionHairball" ∨ c.Defines f.hairballAction
  eatSound : ∀ collection, f.eatSound = .collection collection →
    collection = "eating" ∨ c.Defines collection

/-- A component has the overrides of its document and the defaults where there are none. -/
theorem FelinidOverrides.anchored_component {o : FelinidOverrides}
    (h : ∀ reference ∈ o.references, c.Defines reference) : o.component.Anchored c where
  hairballPrototype := by
    cases hset : o.hairballPrototype with
    | none => exact Or.inl (by simp [component, hset])
    | some prototype =>
      right
      simpa [component, hset] using h prototype (by simp [references, hset])
  hairballAction := by
    cases hset : o.hairballAction with
    | none => exact Or.inl (by simp [component, hset])
    | some action =>
      right
      simpa [component, hset] using h action (by simp [references, hset])
  eatSound := by
    intro collection hcollection
    cases hset : o.eatSound with
    | none =>
      left
      simpa [component, hset, eq_comm] using hcollection
    | some sound =>
      right
      have hsound : sound = .collection collection := by simpa [component, hset] using hcollection
      exact h collection (by simp [references, hset, hsound, SoundSpecifier.collection?])

theorem Felinid.Anchored.forget {f : Felinid} (h : f.Anchored c) (uid : EntityUid) :
    (f.forget uid).Anchored c :=
  ⟨h.hairballPrototype, h.hairballAction, h.eatSound⟩

/-- An edit of a component that points at documents or defaults leaves one that does; other uses may
do anything. -/
def Use.KeepsAnchored (c : Catalogue) : Use → Prop
  | .request (.edit _ change) => ∀ f : Felinid, f.Anchored c → (change f).Anchored c
  | _ => True

namespace Server

variable {s : Server} {uses : List Use}

/-- The components that entities get, and the jobs of mind filters, come from documents. -/
theorem Reflects.anchored (h : s.Reflects c uses) (hresolves : c.Resolves) {f : Felinid}
    (htemplate : s.templates.get? id = some f) : f.Anchored c := by
  rw [h.templates, get?_templatesOf_last, Option.map_eq_some_iff] at htemplate
  obtain ⟨o, hlast, rfl⟩ := htemplate
  obtain ⟨p, hp, hdeclared⟩ := List.mem_filterMap.1 (List.mem_of_getLast? hlast)
  exact FelinidOverrides.anchored_component fun reference href =>
    hresolves p hp reference (Prototype.mem_references_of_felinidUnder? hdeclared href)

theorem Reflects.defines_job (h : s.Reflects c uses) (hresolves : c.Resolves) {f : MindFilter}
    (hfilter : s.filters.get? id = some f) {job : JobId} (hjob : job ∈ f.blacklist) :
    c.Defines job := by
  rw [h.filters, get?_filtersOf_last, Option.map_eq_some_iff] at hfilter
  obtain ⟨jobs, hlast, rfl⟩ := hfilter
  obtain ⟨p, hp, hlisted⟩ := List.mem_filterMap.1 (List.mem_of_getLast? hlast)
  exact hresolves p hp job (Prototype.references_of_jobsUnder? hlisted ▸ hjob)

/-! ## Runs -/

/-- What the felinid components of a server point at are defaults or defined. -/
def Anchored (s : Server) (c : Catalogue) : Prop :=
  ∀ uid f, s.felinids.rows.get? uid = some f → f.Anchored c

theorem Anchored.of_felinids_eq {t : Server} (h : s.Anchored c) (heq : t.felinids = s.felinids) :
    t.Anchored c := by
  rwa [Anchored, heq]

/-- A request makes components from documents and drops references to entities, but it points no
component at another prototype. Only an edit might. -/
theorem Anchored.perform (hanchored : s.Anchored c) (h : s.Reflects c uses)
    (hresolves : c.Resolves) {request : Request}
    (hedit : ∀ uid change, request = .edit uid change →
      ∀ f : Felinid, f.Anchored c → (change f).Anchored c) :
    (s.perform request).server.Anchored c := by
  cases request with
  | spawn prototype =>
    show (s.spawn prototype).server.Anchored c
    intro uid f hrow
    rw [spawn_eq h.sound] at hrow
    cases htemplate : s.templates.get? prototype with
    | none =>
      simp only [htemplate] at hrow
      exact hanchored uid f hrow
    | some template =>
      simp only [htemplate, Table.get?_insert] at hrow
      split at hrow
      · obtain rfl := Option.some.inj hrow
        exact h.anchored hresolves htemplate
      · exact hanchored uid f hrow
  | pickUp carrier carried =>
    show (s.pickUp carrier carried).server.Anchored c
    by_cases hfree : s.carries.Free carrier carried
    · exact hanchored.of_felinids_eq (by rw [pickUp_of_free h.sound hfree])
    · obtain ⟨failure, hfail⟩ := pickUp_of_not_free h.sound hfree
      exact hanchored.of_felinids_eq (by rw [hfail])
  | drop carried =>
    show (s.drop carried).server.Anchored c
    exact hanchored.of_felinids_eq (by rw [drop_eq h.sound])
  | despawn uid =>
    show (s.despawn uid).server.Anchored c
    intro other f hrow
    rw [despawn_eq h.sound] at hrow
    simp only [forgetting, Table.get?_mapValues, Table.get?_erase] at hrow
    obtain ⟨kept, hkept, rfl⟩ := Option.map_eq_some_iff.1 hrow
    -- what stays forgets the entity, but still points at the same documents
    split at hkept
    · cases hkept
    · exact (hanchored other kept hkept).forget uid
  | edit uid change =>
    show (s.edit uid change).server.Anchored c
    intro other f hrow
    rw [edit_eq h.sound] at hrow
    simp only [Table.get?_modify] at hrow
    split at hrow
    · obtain ⟨before, hbefore, rfl⟩ := Option.map_eq_some_iff.1 hrow
      exact hedit uid change rfl before (hanchored other before hbefore)
    · exact hanchored other f hrow

theorem Anchored.use (hanchored : s.Anchored c) (h : s.Reflects c uses) (hresolves : c.Resolves)
    {u : Use} (hkeeps : u.KeepsAnchored c) : (s.use u).Anchored c := by
  cases u with
  | request request =>
    refine hanchored.perform h hresolves fun uid change heq => ?_
    subst heq
    exact hkeeps
  | start =>
    refine hanchored.of_felinids_eq ?_
    show s.start.server.felinids = s.felinids
    rw [start]
    split <;> rfl
  | keep change => exact hanchored
  | play sound => exact hanchored

theorem anchored_used (config : ServerConfig) (hresolves : c.Resolves)
    (hkeeps : ∀ u ∈ uses, u.KeepsAnchored c) : ((ofCatalogue config c).used uses).Anchored c := by
  induction uses using List.reverseRecOn with
  | nil =>
    intro uid f hrow
    cases hrow
  | append_singleton uses u ih =>
    rw [used, List.foldl_concat]
    have hbefore := ih fun earlier hearlier => hkeeps earlier (List.mem_append_left [u] hearlier)
    exact hbefore.use (reflects_used config c uses) hresolves
      (hkeeps u (List.mem_append_right uses (List.mem_singleton_self u)))

/-- If the report on the content of a server finds no unknown reference, then nothing that the server
has points nowhere: whatever it was used for, a new entity gets a component that points at defaults
and documents only or no component, mind filters list documents, and so all components keep pointing
at defaults and documents as long as no edit breaks that. -/
theorem nothing_dangles {tree : FileTree} {config : ServerConfig}
    (h : bootstrap tree config = .ok s) :
    ∃ c, ({} : Catalogue).addDirectory tree config.prototypesDir = .ok c ∧
      ∀ locale, (∀ issue ∈ (Report.of c locale).issues, issue.kind ≠ .unknownReference) →
        ∀ uses,
          let t := s.used uses
          (∀ id, (t.spawn id).server.felinids.rows = t.felinids.rows ∨
            ∃ f : Felinid, f.Anchored c ∧
              (t.spawn id).server.felinids.rows = t.felinids.rows.insert t.nextUid f) ∧
          (∀ id f, t.filters.get? id = some f → ∀ job ∈ f.blacklist, c.Defines job) ∧
          ((∀ u ∈ uses, u.KeepsAnchored c) →
            ∀ uid f, t.felinids.rows.get? uid = some f → f.Anchored c) := by
  obtain ⟨c, hadded, rfl⟩ := exists_catalogue_of_bootstrap h
  refine ⟨c, hadded, fun locale hnone uses => ?_⟩
  have hresolves : c.Resolves := (Report.resolves_iff c locale).1 hnone
  have hreflects := reflects_used config c uses
  refine ⟨fun id => ?_, fun id f hfilter job hjob => ?_, anchored_used config hresolves⟩
  · rw [spawn_eq hreflects.sound]
    cases htemplate : ((ofCatalogue config c).used uses).templates.get? id with
    | none => exact Or.inl rfl
    | some f => exact Or.inr ⟨f, hreflects.anchored hresolves htemplate, rfl⟩
  · exact hreflects.defines_job hresolves hfilter hjob

/-- What a directory with one entity holds, which coughs up its own kind. -/
def lonerCatalogue : Catalogue where
  prototypes := [⟨.entity (twin "E"), ⟨"p/a.yml"⟩⟩]

/-- A server for the directory. -/
def lonerServer : Server := ofCatalogue { prototypesDir := ⟨"p"⟩ } lonerCatalogue

theorem parse_loner : Yaml.parse (twinItem "E") = .ok (.sequence [twinDocument "E"]) := by
  have hevents : (Yaml.tokensOf (twinItem "E") >>= Yaml.eventsOf) =
      .ok (.sequenceStart {} :: (twinEvents "E" ++ [.sequenceEnd])) := by
    decide +kernel
  exact Yaml.parse_of_events hevents (value_twinNode ["E"] 17) rfl

theorem addDirectory_loner :
    ({} : Catalogue).addDirectory (single (twinItem "E")) ⟨"p"⟩ = .ok lonerCatalogue :=
  addDirectory_single parse_loner (by simp only [readDocuments, ofDocument?_twin, Except.map])

theorem bootstrap_loner :
    bootstrap (single (twinItem "E")) { prototypesDir := ⟨"p"⟩ } = .ok lonerServer := by
  rw [bootstrap, addDirectory_loner]
  rfl

theorem resolves_loner : lonerCatalogue.Resolves := by
  intro p hp id hreference
  have hentity : p = .entity (twin "E") := List.mem_singleton.1 hp
  subst hentity
  have hid : id = "E" := List.mem_singleton.1 hreference
  exact ⟨_, hp, by rw [hid]; rfl⟩

theorem nothing_dangles_loner :
    bootstrap (single (twinItem "E")) { prototypesDir := ⟨"p"⟩ } = .ok lonerServer ∧
      (∀ issue ∈ (Report.of lonerCatalogue {}).issues, issue.kind ≠ .unknownReference) ∧
      let t := lonerServer.used [.request (.spawn "E"), .start]
      t.felinids.rows.get? ⟨1⟩ = some { hairballPrototype := "E" } ∧
        ∀ uid f, t.felinids.rows.get? uid = some f → f.Anchored lonerCatalogue := by
  obtain ⟨c, hadded, hdangles⟩ := nothing_dangles bootstrap_loner
  obtain rfl : lonerCatalogue = c := Except.ok.inj (addDirectory_loner.symm.trans hadded)
  have hnone := (Report.resolves_iff lonerCatalogue {}).2 resolves_loner
  obtain ⟨-, -, hanchored⟩ := hdangles {} hnone [.request (.spawn "E"), .start]
  refine ⟨bootstrap_loner, hnone, by decide, hanchored fun u hu => ?_⟩
  rcases List.mem_cons.1 hu with rfl | hu
  · trivial
  · obtain rfl := List.mem_singleton.1 hu
    trivial

end Server

end Station
