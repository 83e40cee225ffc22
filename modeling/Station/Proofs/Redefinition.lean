import Mathlib.Data.List.Basic
import Station.Proofs.Table
import Station.Server

/-!
# What was said last

Documents define ids again, and minds are saved again. What counts is what was said last (`LastOf`),
whatever was said before, and whatever comes later and is about something else.

The registries of a server are tables that are filled in different ways from one list of documents.
Each of them answers with what the last document says (`get?_templatesOf_last`,
`get?_filtersOf_last`, `get?_soundsOf_last`), and a roster answers with what the last change of a
mind has left (`MindRoster.find?_after`).
-/

namespace Station

/-- Of the items that answer at all, the last one answers `b`. -/
def LastOf {α β : Type} (answer : α → Option β) (items : List α) (b : β) : Prop :=
  ∃ before item after, items = before ++ item :: after ∧ answer item = some b ∧
    ∀ later ∈ after, answer later = none

section LastOf

variable {α β : Type} {answer : α → Option β} {items : List α} {b : β}

theorem getLast?_filterMap_eq_some_iff :
    (items.filterMap answer).getLast? = some b ↔ LastOf answer items b := by
  rw [List.getLast?_eq_some_iff, LastOf]
  constructor
  · rintro ⟨answers, hanswers⟩
    obtain ⟨before, rest, rfl, -, hrest⟩ := List.filterMap_eq_append_iff.1 hanswers
    obtain ⟨silent, item, after, rfl, -, hitem, hafter⟩ := List.filterMap_eq_cons_iff.1 hrest
    refine ⟨before ++ silent, item, after, (List.append_assoc ..).symm, hitem, ?_⟩
    exact List.filterMap_eq_nil_iff.1 hafter
  · rintro ⟨before, item, after, rfl, hitem, hafter⟩
    refine ⟨before.filterMap answer, ?_⟩
    rw [List.filterMap_append, List.filterMap_cons_some hitem, List.filterMap_eq_nil_iff.2 hafter]

theorem getLast?_filterMap_eq_none_iff :
    (items.filterMap answer).getLast? = none ↔ ∀ item ∈ items, answer item = none := by
  rw [List.getLast?_eq_none_iff, List.filterMap_eq_nil_iff]

/-- One more item answers last, unless it is silent. -/
theorem lastOf_concat_iff {item : α} :
    LastOf answer (items ++ [item]) b ↔
      answer item = some b ∨ answer item = none ∧ LastOf answer items b := by
  simp only [← getLast?_filterMap_eq_some_iff, List.filterMap_append]
  cases h : answer item <;> simp [h]

/-- Unless all items are silent, one of them answers last. -/
theorem exists_lastOf_iff : (∃ b, LastOf answer items b) ↔ ¬ ∀ item ∈ items, answer item = none := by
  simp only [← getLast?_filterMap_eq_some_iff, ← getLast?_filterMap_eq_none_iff,
    ← Option.isSome_iff_exists, Option.isSome_iff_ne_none, ne_eq]

end LastOf

/-! ## Tables -/

namespace Table

variable {α β γ κ : Type} [Ord κ] [Std.TransOrd κ] [Std.LawfulEqOrd κ] [DecidableEq κ]

/-- In a table of the rows that items make, a key has the last answer that an item gives for it. -/
theorem get?_ofList_filterMap {row : α → Option (κ × β)} {answer : α → Option γ} {value : γ → β}
    {key : κ} (h : ∀ item, ((row item).bind fun r => if r.1 = key then some r.2 else none) =
      (answer item).map value) (items : List α) :
    (ofList (items.filterMap row)).get? key = (items.filterMap answer).getLast?.map value := by
  -- from the end, since the row of a later item replaces those before it
  induction items using List.reverseRecOn with
  | nil => rfl
  | append_singleton items item ih =>
    have hitem := h item
    rw [List.filterMap_append, List.filterMap_append]
    cases hrow : row item with
    | none =>
      rw [hrow] at hitem
      have hsilent : answer item = none := by simpa using hitem.symm
      simp [hrow, hsilent, ih]
    | some r =>
      rw [hrow, Option.bind_some] at hitem
      rw [List.filterMap_cons_some hrow, List.filterMap_nil, ofList_concat, get?_insert, ih]
      by_cases hkey : r.1 = key
      · rw [if_pos hkey] at hitem
        obtain ⟨c, hanswer, hvalue⟩ := Option.map_eq_some_iff.1 hitem.symm
        simp [hkey, hanswer, hvalue]
      · rw [if_neg hkey] at hitem
        have hsilent : answer item = none := by simpa using hitem.symm
        simp [Ne.symm hkey, hsilent]

end Table

/-! ## Documents -/

namespace Prototype

/-- The files that a document lists for a sound collection. -/
def filesUnder? (id : SoundCollectionId) : Prototype → Option (List String)
  | .soundCollection p => if p.id = id then some p.files else none
  | _ => none

/-- The first felinid component that a document lists for an entity, if it lists any. -/
def felinidUnder? (id : PrototypeId) : Prototype → Option FelinidOverrides
  | .entity p => if p.id = id then p.felinid? else none
  | _ => none

/-- The jobs that a document lists for a mind filter. -/
def jobsUnder? (id : PrototypeId) : Prototype → Option (List JobId)
  | .mindFilter p => if p.id = id then some p.blacklist else none
  | _ => none

/-- Whether a document has the shape of its kind. -/
def isTyped : Prototype → Bool
  | .other .. => false
  | _ => true

theorem felinidUnder?_eq_some_iff {id : PrototypeId} {p : Prototype} {o : FelinidOverrides} :
    p.felinidUnder? id = some o ↔ ∃ entity skipped rest, p = .entity entity ∧ entity.id = id ∧
      entity.components = skipped ++ .felinid o :: rest ∧ ∀ entry ∈ skipped, entry = .unknown := by
  have hunknown : ∀ entry : ComponentEntry, entry.felinid? = none ↔ entry = .unknown := by
    intro entry
    cases entry <;> simp [ComponentEntry.felinid?]
  have hfelinid : ∀ entry : ComponentEntry, entry.felinid? = some o ↔ entry = .felinid o := by
    intro entry
    cases entry <;> simp [ComponentEntry.felinid?]
  cases p with
  | entity entity =>
    rw [felinidUnder?]
    by_cases hid : entity.id = id
    · simp [hid, EntityPrototype.felinid?, List.findSome?_eq_some_iff, hunknown, hfelinid]
    · simp [hid]
  | job | soundCollection | mindFilter | other => simp [felinidUnder?]

end Prototype

/-- The documents, in the order in which they were read. -/
def Catalogue.documents (c : Catalogue) : List Prototype :=
  c.prototypes.map fun loaded => loaded.prototype

namespace Server

theorem get?_templatesOf_last (c : Catalogue) (id : PrototypeId) :
    (templatesOf c).get? id =
      (c.documents.filterMap (Prototype.felinidUnder? id)).getLast?.map
        FelinidOverrides.component := by
  have hrows : templatesOf c = .ofList (c.documents.filterMap fun p =>
      p.entity?.bind fun entity => entity.component?.map fun component =>
        (entity.id, component)) := by
    rw [templatesOf, Catalogue.entities, Catalogue.documents, List.filterMap_filterMap,
      List.filterMap_map]
    rfl
  rw [hrows]
  refine Table.get?_ofList_filterMap (fun p => ?_) c.documents
  cases p with
  | entity entity =>
    show ((entity.component?.map fun component => (entity.id, component)).bind _) = _
    rw [EntityPrototype.component?, Prototype.felinidUnder?]
    cases entity.felinid? <;> split <;> simp [*]
  | job | soundCollection | mindFilter | other => rfl

theorem get?_filtersOf_last (c : Catalogue) (id : PrototypeId) :
    (filtersOf c).get? id =
      (c.documents.filterMap (Prototype.jobsUnder? id)).getLast?.map MindFilter.mk := by
  have hrows : filtersOf c = .ofList (c.documents.filterMap fun p =>
      p.mindFilter?.map fun filter => (filter.id, filter.filter)) := by
    rw [filtersOf, Catalogue.mindFilters, Catalogue.documents, List.map_filterMap,
      List.filterMap_map]
    rfl
  rw [hrows]
  refine Table.get?_ofList_filterMap (fun p => ?_) c.documents
  cases p with
  | mindFilter filter =>
    show (if filter.id = id then some filter.filter else none) =
      (if filter.id = id then some filter.blacklist else none).map MindFilter.mk
    split <;> rfl
  | job | soundCollection | entity | other => rfl

theorem get?_soundsOf_last (c : Catalogue) (id : SoundCollectionId) :
    (soundsOf c).collections.get? id =
      (c.documents.filterMap (Prototype.filesUnder? id)).getLast?.map fun files => { files } := by
  have hregister : ∀ (ps : List SoundCollectionPrototype) (r : SoundRegistry),
      (ps.foldl (fun r p => r.register p.id p.files) r).collections =
        (ps.map fun p => (p.id, ({ files := p.files } : SoundCollection))).foldl
          (fun t row => t.insert row.1 row.2) r.collections := by
    intro ps
    induction ps with
    | nil => exact fun _ => rfl
    | cons p rest ih => exact fun r => ih (r.register p.id p.files)
  have hrows : (soundsOf c).collections = .ofList (c.documents.filterMap fun p =>
      p.soundCollection?.map fun sounds => (sounds.id, { files := sounds.files })) := by
    rw [soundsOf, hregister, Catalogue.soundCollections, Catalogue.documents, List.map_filterMap,
      List.filterMap_map]
    rfl
  rw [hrows]
  refine Table.get?_ofList_filterMap (fun p => ?_) c.documents
  cases p with
  | soundCollection sounds =>
    show (if sounds.id = id then some ({ files := sounds.files } : SoundCollection) else none) =
      (if sounds.id = id then some sounds.files else none).map _
    split <;> rfl
  | job | mindFilter | entity | other => rfl

end Server

/-! ## Minds -/

/-- A change to a roster of minds. -/
inductive RosterChange where
  /-- Save a record. -/
  | save (record : Mind)
  /-- Delete the record of a mind. -/
  | delete (id : MindId)

/-- What a change of a mind leaves of it: a record, or none. -/
def RosterChange.leaves? (id : MindId) : RosterChange → Option (Option Mind)
  | .save record => if record.id = id then some (some record) else none
  | .delete other => if other = id then some none else none

namespace MindRoster

/-- The roster after a change. -/
def change (r : MindRoster) : RosterChange → MindRoster
  | .save record => r.save record
  | .delete id => r.delete id

/-- The roster after some changes. -/
def after (r : MindRoster) (changes : List RosterChange) : MindRoster := changes.foldl change r

theorem find?_change (r : MindRoster) (c : RosterChange) (id : MindId) :
    (r.change c).find? id = (c.leaves? id).getD (r.find? id) := by
  cases c with
  | save record =>
    rw [change, save, find?, Table.get?_insert, RosterChange.leaves?]
    by_cases h : record.id = id
    · simp [h]
    · simp [h, Ne.symm h, find?]
  | delete other =>
    rw [change, delete, find?, Table.get?_erase, RosterChange.leaves?]
    by_cases h : other = id
    · simp [h]
    · simp [h, Ne.symm h, find?]

/-- A roster finds what the last change of a mind has left. -/
theorem find?_after (changes : List RosterChange) (id : MindId) :
    (({} : MindRoster).after changes).find? id =
      (changes.filterMap (RosterChange.leaves? id)).getLast?.join := by
  induction changes using List.reverseRecOn with
  | nil => rfl
  | append_singleton changes c ih =>
    rw [after, List.foldl_concat, ← after, find?_change, ih, List.filterMap_append]
    cases hleaves : c.leaves? id with
    | none => simp [hleaves]
    | some left => simp [hleaves]

theorem holds_after_iff {changes : List RosterChange} {mind : MindId} {job : JobId} :
    (({} : MindRoster).after changes).holds mind job = true ↔
      ∃ record, LastOf (RosterChange.leaves? mind) changes (some record) ∧ job ∈ record.jobs := by
  have hfind : ∀ record, (({} : MindRoster).after changes).find? mind = some record ↔
      LastOf (RosterChange.leaves? mind) changes (some record) := by
    intro record
    rw [find?_after, Option.join_eq_some_iff, getLast?_filterMap_eq_some_iff]
  simp only [← hfind, holds]
  cases (({} : MindRoster).after changes).find? mind <;> simp [Mind.hasJob]

end MindRoster

end Station
