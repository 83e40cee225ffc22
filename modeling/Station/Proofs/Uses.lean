import Mathlib.Data.List.Basic
import Station.Proofs.Redefinition
import Station.Proofs.Rotation
import Station.Proofs.Templates

/-!
# Using a server

`Use` is what happens to a server once it is built: requests about entities, its start, changes to
the minds, and sounds that are played, in any order.

`Reflects` relates a server to the catalogue that it was built from and to all of its uses so far.
The registries stay those of the catalogue, but for the turns of the sound collections, which count
how often each one was played; the minds are what the changes have made of them. One use keeps this
true (`Reflects.use`), so it holds of every run (`reflects_after`).
-/

namespace Station

/-! ## Uses -/

/-- What happens to a server once it is built. -/
inductive Use where
  /-- A request about entities. -/
  | request (request : Request)
  /-- The start of the server. -/
  | start
  /-- A change to the minds. -/
  | keep (change : RosterChange)
  /-- A sound that is played. -/
  | play (sound : SoundSpecifier)

namespace Use

/-- The change to the minds that a use is, if it is one. -/
def change? : Use → Option RosterChange
  | .keep change => some change
  | .request _ | .start | .play _ => none

/-- Whether a use plays a sound collection. -/
def plays (id : SoundCollectionId) : Use → Bool
  | .play (.collection other) => decide (other = id)
  | .play (.path _) | .request _ | .start | .keep _ => false

end Use

namespace Server

variable {s : Server} {c : Catalogue}

/-- The server after it was used. -/
def use (s : Server) : Use → Server
  | .request request => (s.perform request).server
  | .start => s.start.server
  | .keep change => { s with minds := s.minds.change change }
  | .play sound => (s.resolveSound sound).2

/-- The server after a run of uses. -/
def used (s : Server) (uses : List Use) : Server := uses.foldl use s

/-- A server reflects the catalogue that it was built from and its uses so far. -/
structure Reflects (s : Server) (c : Catalogue) (uses : List Use) : Prop where
  sound : s.Sound
  templates : s.templates = templatesOf c
  filters : s.filters = filtersOf c
  minds : s.minds = ({} : MindRoster).after (uses.filterMap Use.change?)
  sounds : ∀ id, s.sounds.collections.get? id =
    ((soundsOf c).collections.get? id).map (SoundCollection.advance (uses.countP (Use.plays id)))

theorem reflects_ofCatalogue (config : ServerConfig) (c : Catalogue) :
    (ofCatalogue config c).Reflects c [] where
  sound := sound_ofCatalogue config c
  templates := rfl
  filters := rfl
  minds := rfl
  sounds id := by
    rw [List.countP_nil, SoundCollection.map_advance_zero]
    rfl

variable {uses : List Use}

/-- A use that neither changes the minds nor plays anything leaves what is reflected. -/
theorem Reflects.of_frame {t : Server} {u : Use} (h : s.Reflects c uses) (hsound : t.Sound)
    (htemplates : t.templates = s.templates) (hfilters : t.filters = s.filters)
    (hminds : t.minds = s.minds) (hsounds : t.sounds = s.sounds) (hchange : u.change? = none)
    (hplays : ∀ id, u.plays id = false) : t.Reflects c (uses ++ [u]) where
  sound := hsound
  templates := htemplates.trans h.templates
  filters := hfilters.trans h.filters
  minds := by simp [hminds, h.minds, hchange]
  sounds id := by simp [hsounds, h.sounds, hplays]

theorem Reflects.use (h : s.Reflects c uses) (u : Use) : (s.use u).Reflects c (uses ++ [u]) := by
  cases u with
  | request request =>
    -- a request writes to the components and the counter only, and no answer is kept there
    obtain ⟨felinids, carries, nextUid, hframe⟩ := perform_frame h.sound request
    have hsound := h.sound.perform request
    rw [Server.use]
    rw [hframe] at hsound ⊢
    exact h.of_frame hsound rfl rfl rfl rfl rfl fun _ => rfl
  | start =>
    have hframe : ∃ gate, s.start.server = { s with gate } := by
      rw [start]
      split <;> exact ⟨_, rfl⟩
    obtain ⟨gate, hframe⟩ := hframe
    rw [Server.use, hframe]
    have hsound : ({ s with gate } : Server).Sound := ⟨h.sound.1, h.sound.2, h.sound.3⟩
    exact h.of_frame hsound rfl rfl rfl rfl rfl fun _ => rfl
  | keep change =>
    refine ⟨⟨h.sound.1, h.sound.2, h.sound.3⟩, h.templates, h.filters, ?_, fun id => ?_⟩
    · simp [Server.use, h.minds, MindRoster.after, Use.change?]
    · simp [Server.use, h.sounds, Use.plays]
  | play sound =>
    refine ⟨⟨h.sound.1, h.sound.2, h.sound.3⟩, h.templates, h.filters, ?_, fun id => ?_⟩
    · rw [List.filterMap_append, List.filterMap_cons_none rfl, List.filterMap_nil, List.append_nil]
      exact h.minds
    · cases sound with
      | path path =>
        -- a path is no collection, so no turn is taken
        rw [List.countP_append]
        exact h.sounds id
      | collection other =>
        show (s.sounds.resolve (.collection other)).2.collections.get? id = _
        rw [SoundRegistry.get?_resolve_collection, h.sounds, Option.map_map,
          List.countP_append]
        refine congrArg (Option.map · _) (funext fun collection => ?_)
        simp [SoundCollection.advance_advance, Use.plays]

/-- In every run a server reflects its catalogue and the run. -/
theorem reflects_used (config : ServerConfig) (c : Catalogue) (uses : List Use) :
    ((ofCatalogue config c).used uses).Reflects c uses := by
  induction uses using List.reverseRecOn with
  | nil => exact reflects_ofCatalogue config c
  | append_singleton uses u ih =>
    rw [used, List.foldl_concat]
    exact ih.use u

/-! ## Answers -/

namespace Reflects

variable {id : PrototypeId}

/-- A sound collection takes turns through the files that were listed last. -/
theorem sound_of_lastOf {files : List String} (h : s.Reflects c uses)
    (hlast : LastOf (Prototype.filesUnder? id) c.documents files) :
    (s.resolveSound (.collection id)).1 =
      files[uses.countP (Use.plays id) % 2 ^ 64 % files.length]? := by
  show (s.sounds.resolve (.collection id)).1 = _
  rw [SoundRegistry.resolve_collection_fst, h.sounds, get?_soundsOf_last,
    getLast?_filterMap_eq_some_iff.2 hlast]
  exact SoundCollection.current?_advance files _

theorem sound_of_silent (h : s.Reflects c uses)
    (hsilent : ∀ p ∈ c.documents, p.filesUnder? id = none) :
    (s.resolveSound (.collection id)).1 = none := by
  show (s.sounds.resolve (.collection id)).1 = _
  rw [SoundRegistry.resolve_collection_fst, h.sounds, get?_soundsOf_last,
    getLast?_filterMap_eq_none_iff.2 hsilent]
  rfl

/-- A new entity gets the component that was declared last for its prototype. -/
theorem spawn_rows (h : s.Reflects c uses) (id : PrototypeId) :
    (s.spawn id).server.felinids.rows =
      ((c.documents.filterMap (Prototype.felinidUnder? id)).getLast?.map
        FelinidOverrides.component).elim s.felinids.rows (s.felinids.rows.insert s.nextUid) := by
  rw [spawn_eq h.sound, h.templates, get?_templatesOf_last]
  cases (c.documents.filterMap (Prototype.felinidUnder? id)).getLast? <;> rfl

/-- A mind filter lets pass the minds whose latest record holds a job that was listed last. -/
theorem eligibleMinds_of_lastOf {jobs : List JobId} (h : s.Reflects c uses)
    (hlast : LastOf (Prototype.jobsUnder? id) c.documents jobs) (minds : List MindId) :
    ∃ keeps : MindId → Bool, s.eligibleMinds id minds = .ok (minds.filter keeps) ∧
      ∀ mind, keeps mind = true ↔ ∃ record,
        LastOf (RosterChange.leaves? mind) (uses.filterMap Use.change?) (some record) ∧
          ∃ job ∈ jobs, job ∈ record.jobs := by
  refine ⟨fun mind => jobs.any (s.minds.holds mind), ?_, fun mind => ?_⟩
  · rw [eligibleMinds, h.filters, get?_filtersOf_last, getLast?_filterMap_eq_some_iff.2 hlast]
    simp [retainAllowed, MindFilter.isAllowed, MindFilter.shouldRemove]
  · simp only [List.any_eq_true, h.minds, MindRoster.holds_after_iff]
    constructor
    · rintro ⟨job, hjob, record, hrecord, hheld⟩
      exact ⟨record, hrecord, job, hjob, hheld⟩
    · rintro ⟨record, hrecord, job, hjob, hheld⟩
      exact ⟨job, hjob, record, hrecord, hheld⟩

theorem eligibleMinds_of_silent (h : s.Reflects c uses)
    (hsilent : ∀ p ∈ c.documents, p.jobsUnder? id = none) (minds : List MindId) :
    s.eligibleMinds id minds = .error (.unknownMindFilter id) := by
  rw [eligibleMinds, h.filters, get?_filtersOf_last, getLast?_filterMap_eq_none_iff.2 hsilent]
  rfl

/-- Only an id without a filter is an error. -/
theorem eligibleMinds_eq_error_iff (h : s.Reflects c uses) {minds : List MindId}
    {failure : Failure} :
    s.eligibleMinds id minds = .error failure ↔
      failure = .unknownMindFilter id ∧ ∀ p ∈ c.documents, p.jobsUnder? id = none := by
  constructor
  · intro herror
    by_cases hsilent : ∀ p ∈ c.documents, p.jobsUnder? id = none
    · rw [h.eligibleMinds_of_silent hsilent] at herror
      exact ⟨(Except.error.inj herror).symm, hsilent⟩
    · obtain ⟨jobs, hlast⟩ := exists_lastOf_iff.2 hsilent
      obtain ⟨keeps, hok, -⟩ := h.eligibleMinds_of_lastOf hlast minds
      rw [hok] at herror
      cases herror
  · rintro ⟨rfl, hsilent⟩
    exact h.eligibleMinds_of_silent hsilent minds

end Reflects

/-- Documents without the shape of their kind make no difference. -/
theorem ofCatalogue_filter_isTyped (config : ServerConfig) (c : Catalogue) :
    ofCatalogue config
        { c with prototypes := c.prototypes.filter fun loaded => loaded.prototype.isTyped } =
      ofCatalogue config c := by
  have hfilter : ∀ {α : Type} {select : Prototype → Option α},
      (∀ kind id?, select (.other kind id?) = none) →
      (c.prototypes.filter fun loaded => loaded.prototype.isTyped).filterMap
          (fun loaded => select loaded.prototype) =
        c.prototypes.filterMap fun loaded => select loaded.prototype := by
    intro α select hother
    rw [List.filterMap_filter]
    refine List.filterMap_congr fun loaded _ => ?_
    cases hprototype : loaded.prototype <;> simp [Prototype.isTyped, hother]
  have hentities := @hfilter _ Prototype.entity? fun _ _ => rfl
  have hfilters := @hfilter _ Prototype.mindFilter? fun _ _ => rfl
  have hsounds := @hfilter _ Prototype.soundCollection? fun _ _ => rfl
  simp only [ofCatalogue, templatesOf, filtersOf, soundsOf, Catalogue.entities,
    Catalogue.mindFilters, Catalogue.soundCollections, hentities, hfilters, hsounds]

/-- Whatever a server was used for, it answers every id from the last document that says something
about it and has the shape of its kind. -/
theorem last_typed_document_answers {tree : FileTree} {config : ServerConfig}
    (h : bootstrap tree config = .ok s) :
    ∃ c, ({} : Catalogue).addDirectory tree config.prototypesDir = .ok c ∧
      (∀ id p overrides, Prototype.felinidUnder? id p = some overrides ↔
        ∃ entity skipped rest, p = .entity entity ∧ entity.id = id ∧
          entity.components = skipped ++ .felinid overrides :: rest ∧
          ∀ entry ∈ skipped, entry = .unknown) ∧
      (∀ uses id,
        let t := s.used uses
        (∀ files, LastOf (Prototype.filesUnder? id) c.documents files →
          (t.resolveSound (.collection id)).1 =
            files[uses.countP (Use.plays id) % 2 ^ 64 % files.length]?) ∧
        ((∀ p ∈ c.documents, p.filesUnder? id = none) →
          (t.resolveSound (.collection id)).1 = none) ∧
        (t.spawn id).answer = .ok t.nextUid ∧
        (∀ overrides, LastOf (Prototype.felinidUnder? id) c.documents overrides →
          (t.spawn id).server.felinids.rows = t.felinids.rows.insert t.nextUid
            { hairballPrototype := overrides.hairballPrototype.getD "Hairball"
              hairballAction := overrides.hairballAction.getD "ActionHairball"
              eatSound := overrides.eatSound.getD (.collection "eating") }) ∧
        ((∀ p ∈ c.documents, p.felinidUnder? id = none) →
          (t.spawn id).server.felinids.rows = t.felinids.rows) ∧
        (∀ minds failure, t.eligibleMinds id minds = .error failure ↔
          failure = .unknownMindFilter id ∧ ∀ p ∈ c.documents, p.jobsUnder? id = none) ∧
        ∀ minds jobs, LastOf (Prototype.jobsUnder? id) c.documents jobs →
          ∃ keeps : MindId → Bool, t.eligibleMinds id minds = .ok (minds.filter keeps) ∧
            ∀ mind, keeps mind = true ↔ ∃ record,
              LastOf (RosterChange.leaves? mind) (uses.filterMap Use.change?) (some record) ∧
                ∃ job ∈ jobs, job ∈ record.jobs) ∧
      ofCatalogue config
        { c with prototypes := c.prototypes.filter fun loaded => loaded.prototype.isTyped } = s := by
  obtain ⟨c, hadded, rfl⟩ := exists_catalogue_of_bootstrap h
  refine ⟨c, hadded, fun id p overrides => Prototype.felinidUnder?_eq_some_iff, fun uses id => ?_,
    ofCatalogue_filter_isTyped config c⟩
  intro t
  have hreflects : t.Reflects c uses := reflects_used config c uses
  refine ⟨fun files hlast => hreflects.sound_of_lastOf hlast, hreflects.sound_of_silent, ?_, ?_,
    ?_, fun minds failure => hreflects.eligibleMinds_eq_error_iff, ?_⟩
  · rw [spawn_eq hreflects.sound]
  · intro overrides hlast
    rw [hreflects.spawn_rows, getLast?_filterMap_eq_some_iff.2 hlast]
    rfl
  · intro hsilent
    rw [hreflects.spawn_rows, getLast?_filterMap_eq_none_iff.2 hsilent]
    rfl
  · exact fun minds jobs hlast => hreflects.eligibleMinds_of_lastOf hlast minds

/-- Of two entities with one id the later one counts, and that id names no sounds and no filter. -/
theorem last_typed_document_answers_twins :
    bootstrap twins { prototypesDir := ⟨"p"⟩ } = .ok twinServer ∧
      let t := twinServer.used [.request (.spawn "E"), .start,
        .keep (.save { id := "M", characterName := "M" }), .play (.collection "E")]
      (t.spawn "E").server.felinids.rows =
          t.felinids.rows.insert t.nextUid { hairballPrototype := "B" } ∧
        (t.resolveSound (.collection "E")).1 = none ∧
        t.eligibleMinds "E" ["M"] = .error (.unknownMindFilter "E") := by
  obtain ⟨c, hadded, -, hanswers, -⟩ := last_typed_document_answers bootstrap_twins
  obtain rfl : twinCatalogue = c := Except.ok.inj (addDirectory_twins.symm.trans hadded)
  obtain ⟨-, hsilent, -, hspawn, -, hfilter, -⟩ := hanswers [.request (.spawn "E"), .start,
    .keep (.save { id := "M", characterName := "M" }), .play (.collection "E")] "E"
  have hlast : LastOf (Prototype.felinidUnder? "E") twinCatalogue.documents
      { hairballPrototype := some "B" } :=
    ⟨[.entity (twin "A")], .entity (twin "B"), [], rfl, by decide, by simp⟩
  exact ⟨bootstrap_twins, hspawn _ hlast, hsilent (by decide), (hfilter _ _).2 ⟨rfl, by decide⟩⟩

end Server

end Station
