import Mathlib.Data.List.Sort
import Station.Proofs.Census

/-!
# The report is sound and complete

`Finding` says what can be wrong with documents and message keys, without a census. The issues of a
report are the findings, all of them and nothing else (`mem_issues_iff`). The four checks already
list them in order (`pairwise_findings`), so sorting changes nothing (`issues_eq`).
-/

namespace Station

open Census (filesDefining Refers)

/-- What is wrong with documents and message keys. -/
inductive Finding (documents : List LoadedPrototype) (locale : LocaleIndex) : Issue → Prop
  /-- Several documents define an id. -/
  | duplicateId {id : PrototypeId} (several : 2 ≤ (filesDefining documents id).length) :
      Finding documents locale ⟨.duplicateId, id, filesDefining documents id⟩
  /-- Some document refers to an id that no document defines. -/
  | unknownReference {id : PrototypeId} {files : List String}
      (referred : ∃ loaded ∈ documents, id ∈ loaded.prototype.references)
      (undefined : ∀ loaded ∈ documents, loaded.prototype.id? ≠ some id)
      (ascending : files.Pairwise (· < ·))
      (mem_iff : ∀ file, file ∈ files ↔ Refers documents file id) :
      Finding documents locale ⟨.unknownReference, id, files⟩
  /-- Several places define a message key. -/
  | duplicateLocale {key : String} {places : List KeyLocation}
      (recorded : locale.keys.get? key = some places) (several : 2 ≤ places.length) :
      Finding documents locale ⟨.duplicateLocale, key, places.map KeyLocation.text⟩
  /-- Some document defines an id that is not a message key. -/
  | missingLocale {id : PrototypeId}
      (defined : ∃ loaded ∈ documents, loaded.prototype.id? = some id)
      (missing : locale.contains id = false) :
      Finding documents locale ⟨.missingLocale, id, filesDefining documents id⟩

/-- Documents and message keys with nothing wrong. -/
structure Consistent (documents : List LoadedPrototype) (locale : LocaleIndex) : Prop where
  ids_nodup : (documents.filterMap fun loaded => loaded.prototype.id?).Nodup
  references_defined : ∀ loaded ∈ documents, ∀ id ∈ loaded.prototype.references,
    ∃ other ∈ documents, other.prototype.id? = some id
  keys_single : ∀ key, (locale.locations key).length ≤ 1
  ids_recorded : ∀ loaded ∈ documents, ∀ id ∈ loaded.prototype.id?, locale.contains id = true

/-- A finding comes before another one: its kind is declared earlier, or its id is smaller. -/
def Issue.Precedes (a b : Issue) : Prop :=
  a.kind.ctorIdx < b.kind.ctorIdx ∨ a.kind = b.kind ∧ a.id < b.id

/-! ## Order -/

theorem IssueKind.ctorIdx_inj {a b : IssueKind} : a.ctorIdx = b.ctorIdx ↔ a = b := by
  cases a <;> cases b <;> decide

theorem compare_eq_lt_iff {a b : String} : compare a b = .lt ↔ a < b :=
  compareOfLessAndEq_eq_lt

namespace Issue

theorem order_eq_lt_iff {a b : Issue} : a.order b = .lt ↔ a.Precedes b := by
  rw [order, compareLex, Ordering.then_eq_lt, compareOn, compareOn, Nat.compare_eq_lt,
    Nat.compare_eq_eq, IssueKind.ctorIdx_inj, compare_eq_lt_iff]
  rfl

theorem Precedes.ne {a b : Issue} (h : a.Precedes b) : (a.kind, a.id) ≠ (b.kind, b.id) := by
  intro heq
  obtain ⟨hkind, hid⟩ := Prod.mk.inj heq
  rcases h with h | ⟨-, h⟩
  · rw [hkind] at h
    exact Nat.lt_irrefl _ h
  · rw [hid] at h
    exact String.lt_irrefl _ h

end Issue

/-- The keys of a table are in the order of texts. -/
theorem pairwise_keys {α : Type} (t : Table String α) : t.keys.Pairwise (· < ·) :=
  t.keys_ascending.imp fun h => compare_eq_lt_iff.1 h

namespace Report

/-! ## The findings of one check -/

section Rows

variable {α : Type} {kind : IssueKind} {locations : α → List String} {rows : List (String × α)}

theorem kind_of_mem_ofRows {issue : Issue} (h : issue ∈ ofRows kind locations rows) :
    issue.kind = kind := by
  obtain ⟨row, -, rfl⟩ := List.mem_map.1 h
  rfl

theorem pairwise_ofRows (h : RowsAscending rows) :
    (ofRows kind locations rows).Pairwise Issue.Precedes :=
  List.Pairwise.map _ (fun _ _ hlt => Or.inr ⟨rfl, compare_eq_lt_iff.1 hlt⟩) h

/-- Filtering by kind keeps all findings of a check or none. -/
theorem filter_ofRows (probe : IssueKind) :
    (ofRows kind locations rows).filter (·.kind == probe) =
      if kind = probe then ofRows kind locations rows else [] := by
  split
  · rename_i heq
    exact List.filter_eq_self.2 fun issue h => beq_iff_eq.2 ((kind_of_mem_ofRows h).trans heq)
  · rename_i hne
    refine List.filter_eq_nil_iff.2 fun issue h hkind => hne ?_
    exact (kind_of_mem_ofRows h).symm.trans (beq_iff_eq.1 hkind)

/-- Findings of kinds that differ come in the order of their kinds. -/
theorem precedes_of_mem_ofRows {β : Type} {later : IssueKind} {others : List (String × β)}
    {places : β → List String} (h : kind.ctorIdx < later.ctorIdx) :
    ∀ a ∈ ofRows kind locations rows, ∀ b ∈ ofRows later places others, a.Precedes b := by
  intro a ha b hb
  left
  rw [kind_of_mem_ofRows ha, kind_of_mem_ofRows hb]
  exact h

end Rows

/-! ## All findings -/

/-- The checks list their findings in order. -/
theorem pairwise_findings (census : Census) (locale : LocaleIndex) :
    (findings census locale).Pairwise Issue.Precedes := by
  have hduplicateIds := rowsAscending_filter (fun row => decide (1 < row.2.length))
    census.defined.ascending
  have hunknown := rowsAscending_filter (fun row => !census.defined.contains row.1)
    census.referenced.ascending
  have hduplicateKeys := rowsAscending_filter (fun row => decide (1 < row.2.length))
    locale.keys.ascending
  have hmissing := rowsAscending_filter (fun row => !locale.contains row.1)
    census.defined.ascending
  refine List.pairwise_append.2 ⟨List.pairwise_append.2 ⟨List.pairwise_append.2
    ⟨pairwise_ofRows hduplicateIds, pairwise_ofRows hunknown, ?_⟩,
    pairwise_ofRows hduplicateKeys, ?_⟩, pairwise_ofRows hmissing, ?_⟩
  -- what is left is that the checks come in the order of their kinds
  · exact precedes_of_mem_ofRows (by decide)
  · intro a ha
    rcases List.mem_append.1 ha with ha | ha
    · exact precedes_of_mem_ofRows (by decide) a ha
    · exact precedes_of_mem_ofRows (by decide) a ha
  · intro a ha
    rcases List.mem_append.1 ha with ha | ha
    · rcases List.mem_append.1 ha with ha | ha
      · exact precedes_of_mem_ofRows (by decide) a ha
      · exact precedes_of_mem_ofRows (by decide) a ha
    · exact precedes_of_mem_ofRows (by decide) a ha

/-- The findings need no sorting. -/
theorem issues_eq (c : Catalogue) (locale : LocaleIndex) :
    (of c locale).issues = findings c.census locale := by
  refine List.mergeSort_of_pairwise ((pairwise_findings c.census locale).imp ?_)
  intro a b h
  rw [Issue.order_eq_lt_iff.2 h]
  rfl

/-- The findings of a report are in strict order. -/
theorem pairwise_issues (c : Catalogue) (locale : LocaleIndex) :
    (of c locale).issues.Pairwise Issue.Precedes := by
  rw [issues_eq]
  exact pairwise_findings c.census locale

/-- The findings of each kind, one kind after the other, are all findings. -/
theorem flatMap_ofKind (c : Catalogue) (locale : LocaleIndex) :
    IssueKind.all.flatMap (of c locale).ofKind = (of c locale).issues := by
  have hkind : ∀ kind, (of c locale).ofKind kind =
      (duplicateIds c.census).filter (·.kind == kind) ++
        (unknownReferences c.census).filter (·.kind == kind) ++
        (duplicateKeys locale).filter (·.kind == kind) ++
        (missingKeys c.census locale).filter (·.kind == kind) := by
    intro kind
    rw [ofKind, issues_eq, findings, List.filter_append, List.filter_append, List.filter_append]
  rw [issues_eq]
  simp [IssueKind.all, hkind, findings, duplicateIds, unknownReferences, duplicateKeys,
    missingKeys, filter_ofRows]

/-! ## Soundness and completeness -/

/-- A check on the rows of a table finds the rows that it keeps. -/
theorem mem_ofRows_filter {α : Type} {kind : IssueKind} {locations : α → List String}
    {t : Table String α} {keep : String × α → Bool} {issue : Issue} :
    issue ∈ ofRows kind locations (t.rows.filter keep) ↔
      ∃ key value, (key, value) ∈ t.rows ∧ keep (key, value) = true ∧
        issue = ⟨kind, key, locations value⟩ := by
  rw [ofRows, List.mem_map]
  constructor
  · rintro ⟨⟨key, value⟩, hrow, rfl⟩
    obtain ⟨hrow, hkeep⟩ := List.mem_filter.1 hrow
    exact ⟨key, value, hrow, hkeep, rfl⟩
  · rintro ⟨key, value, hrow, hkeep, rfl⟩
    exact ⟨(key, value), List.mem_filter.2 ⟨hrow, hkeep⟩, rfl⟩

theorem mem_findings {census : Census} {locale : LocaleIndex} {issue : Issue} :
    issue ∈ findings census locale ↔
      issue ∈ duplicateIds census ∨ issue ∈ unknownReferences census ∨
        issue ∈ duplicateKeys locale ∨ issue ∈ missingKeys census locale := by
  rw [findings, List.mem_append, List.mem_append, List.mem_append, or_assoc, or_assoc]

section Records

variable {census : Census} {documents : List LoadedPrototype} {locale : LocaleIndex} {issue : Issue}

/-- The census lists the files that refer to an id as a finding has to. -/
theorem keys_referrers_eq (h : census.Records documents) {id : PrototypeId} {files : List String}
    (ascending : files.Pairwise (· < ·)) (hmem : ∀ file, file ∈ files ↔ Refers documents file id) :
    (census.referrers id).keys = files := by
  refine List.Pairwise.eq_of_mem_iff (pairwise_keys _) ascending fun file => ?_
  rw [h.mem_keys_referrers_iff, hmem]

/-- A census of documents finds nothing that is not wrong with them. -/
theorem finding_of_mem (h : census.Records documents) (hissue : issue ∈ findings census locale) :
    Finding documents locale issue := by
  rcases mem_findings.1 hissue with hissue | hissue | hissue | hissue
  · obtain ⟨id, files, hrow, hseveral, rfl⟩ := mem_ofRows_filter.1 hissue
    obtain ⟨-, rfl⟩ := h.mem_defined_iff.1 hrow
    exact .duplicateId (of_decide_eq_true hseveral)
  · obtain ⟨id, files, hrow, hundefined, rfl⟩ := mem_ofRows_filter.1 hissue
    obtain ⟨⟨file, loaded, hloaded, -, hreference⟩, rfl⟩ := h.mem_referenced_iff.1 hrow
    refine .unknownReference ⟨loaded, hloaded, hreference⟩ ?_ (pairwise_keys _) fun other =>
      h.mem_keys_referrers_iff
    intro other hother hid
    have hdefined := (h.defined_iff id).2 (Census.filesDefining_ne_nil_iff.2 ⟨other, hother, hid⟩)
    simp [hdefined] at hundefined
  · obtain ⟨key, places, hrow, hseveral, rfl⟩ := mem_ofRows_filter.1 hissue
    exact .duplicateLocale ((locale.keys.mem_rows_iff key places).1 hrow)
      (of_decide_eq_true hseveral)
  · obtain ⟨id, files, hrow, hmissing, rfl⟩ := mem_ofRows_filter.1 hissue
    obtain ⟨hdefined, rfl⟩ := h.mem_defined_iff.1 hrow
    exact .missingLocale (Census.filesDefining_ne_nil_iff.1 hdefined) (by simpa using hmissing)

/-- A census of documents finds everything that is wrong with them. -/
theorem mem_of_finding (h : census.Records documents) (hfinding : Finding documents locale issue) :
    issue ∈ findings census locale := by
  rw [mem_findings]
  cases hfinding with
  | @duplicateId id several =>
    left
    refine mem_ofRows_filter.2 ⟨id, filesDefining documents id, ?_, decide_eq_true several, rfl⟩
    exact h.mem_defined_iff.2 ⟨List.ne_nil_of_length_pos (by omega), rfl⟩
  | @unknownReference id files referred undefined ascending hmem =>
    right; left
    obtain ⟨loaded, hloaded, hreference⟩ := referred
    refine mem_ofRows_filter.2 ⟨id, census.referrers id, ?_, ?_, ?_⟩
    · exact h.mem_referenced_iff.2 ⟨⟨loaded.path.text, loaded, hloaded, rfl, hreference⟩, rfl⟩
    · -- no document defines the id, so it has no row
      rw [Bool.not_eq_true', ← Bool.not_eq_true, h.defined_iff, Census.filesDefining_ne_nil_iff]
      rintro ⟨other, hother, hid⟩
      exact undefined other hother hid
    · rw [keys_referrers_eq h ascending hmem]
  | @duplicateLocale key places recorded several =>
    right; right; left
    refine mem_ofRows_filter.2 ⟨key, places, ?_, decide_eq_true several, rfl⟩
    exact (locale.keys.mem_rows_iff key places).2 recorded
  | @missingLocale id defined missing =>
    right; right; right
    refine mem_ofRows_filter.2 ⟨id, filesDefining documents id, ?_, by simpa using missing, rfl⟩
    exact h.mem_defined_iff.2 ⟨Census.filesDefining_ne_nil_iff.2 defined, rfl⟩

end Records

theorem mem_issues_iff {c : Catalogue} {locale : LocaleIndex} {issue : Issue} :
    issue ∈ (of c locale).issues ↔ Finding c.prototypes locale issue := by
  rw [issues_eq]
  exact ⟨finding_of_mem (Census.records_census c), mem_of_finding (Census.records_census c)⟩

theorem isOk_iff_forall {c : Catalogue} {locale : LocaleIndex} :
    (of c locale).isOk = true ↔ ∀ issue, ¬ Finding c.prototypes locale issue := by
  rw [isOk, List.isEmpty_iff, List.eq_nil_iff_forall_not_mem]
  exact forall_congr' fun issue => not_congr mem_issues_iff

/-- A reference that no document answers is a finding. -/
theorem exists_unknownReference {documents : List LoadedPrototype} {locale : LocaleIndex}
    {loaded : LoadedPrototype} (hloaded : loaded ∈ documents) {id : PrototypeId}
    (hreference : id ∈ loaded.prototype.references)
    (hundefined : ∀ other ∈ documents, other.prototype.id? ≠ some id) :
    ∃ files, Finding documents locale ⟨.unknownReference, id, files⟩ := by
  -- The files that refer to the id are those of the documents that do, sorted.
  have hrecords := Census.records_census ⟨documents, []⟩
  exact ⟨_, .unknownReference ⟨loaded, hloaded, hreference⟩ hundefined (pairwise_keys _) fun file =>
    hrecords.mem_keys_referrers_iff⟩

/-- Every inconsistency is a finding. -/
theorem consistent_of_forall {documents : List LoadedPrototype} {locale : LocaleIndex}
    (h : ∀ issue, ¬ Finding documents locale issue) : Consistent documents locale where
  ids_nodup := by
    refine List.nodup_iff_count_le_one.2 fun id => ?_
    rw [← Census.length_filesDefining]
    by_contra hcount
    have hseveral : 2 ≤ (filesDefining documents id).length := by omega
    exact h _ (.duplicateId hseveral)
  references_defined := by
    intro loaded hloaded id hreference
    by_contra hundefined
    obtain ⟨files, hfinding⟩ := exists_unknownReference hloaded hreference
      fun other hother hid => hundefined ⟨other, hother, hid⟩
    exact h _ hfinding
  keys_single := by
    intro key
    rw [LocaleIndex.locations]
    cases hrecorded : locale.keys.get? key with
    | none => exact Nat.zero_le 1
    | some places =>
      by_contra hseveral
      exact h _ (.duplicateLocale hrecorded (Nat.lt_of_not_le hseveral))
  ids_recorded := by
    intro loaded hloaded id hid
    by_contra hmissing
    exact h _ (.missingLocale ⟨loaded, hloaded, hid⟩ (Bool.eq_false_of_not_eq_true hmissing))

/-- Consistent documents and message keys leave nothing to find. -/
theorem Consistent.not_finding {documents : List LoadedPrototype} {locale : LocaleIndex}
    (h : Consistent documents locale) (issue : Issue) : ¬ Finding documents locale issue := by
  intro hfinding
  cases hfinding with
  | @duplicateId id several =>
    have hcount := List.nodup_iff_count_le_one.1 h.ids_nodup id
    rw [← Census.length_filesDefining] at hcount
    omega
  | @unknownReference id files referred undefined ascending hmem =>
    obtain ⟨loaded, hloaded, hreference⟩ := referred
    obtain ⟨other, hother, hid⟩ := h.references_defined loaded hloaded id hreference
    exact undefined other hother hid
  | @duplicateLocale key places recorded several =>
    have hsingle := h.keys_single key
    rw [LocaleIndex.locations, recorded, Option.getD_some] at hsingle
    omega
  | @missingLocale id defined missing =>
    obtain ⟨loaded, hloaded, hid⟩ := defined
    rw [h.ids_recorded loaded hloaded id hid] at missing
    cases missing

/-! ## Counts -/

theorem prototypeIds_eq (c : Catalogue) (locale : LocaleIndex) :
    (of c locale).prototypeIds =
      {id | ∃ loaded ∈ c.prototypes, loaded.prototype.id? = some id}.ncard := by
  have hset : {id | c.census.defined.contains id = true} =
      {id | ∃ loaded ∈ c.prototypes, loaded.prototype.id? = some id} := by
    ext id
    exact ((Census.records_census c).defined_iff id).trans Census.filesDefining_ne_nil_iff
  rw [← hset]
  exact c.census.defined.size_eq_ncard

theorem referencedIds_eq (c : Catalogue) (locale : LocaleIndex) :
    (of c locale).referencedIds =
      {id | ∃ loaded ∈ c.prototypes, id ∈ loaded.prototype.references}.ncard := by
  have hset : {id | c.census.referenced.contains id = true} =
      {id | ∃ loaded ∈ c.prototypes, id ∈ loaded.prototype.references} := by
    ext id
    refine ((Census.records_census c).referenced_iff id).trans ?_
    constructor
    · rintro ⟨file, loaded, hloaded, -, hreference⟩
      exact ⟨loaded, hloaded, hreference⟩
    · rintro ⟨loaded, hloaded, hreference⟩
      exact ⟨loaded.path.text, loaded, hloaded, rfl, hreference⟩
  rw [← hset]
  exact c.census.referenced.size_eq_ncard

/-! ## The report -/

/-- The issues of a report are exactly the findings, in strict order of kind and id, and the list
falls apart into the kinds. The counts are of distinct ids, references and keys, and a report is
fine exactly if the documents and the message keys are consistent. -/
theorem sound_complete_and_canonical (c : Catalogue) (locale : LocaleIndex) :
    let r := of c locale
    (∀ issue, issue ∈ r.issues ↔ Finding c.prototypes locale issue) ∧
      r.issues.Pairwise Issue.Precedes ∧
      (r.issues.map fun issue => (issue.kind, issue.id)).Nodup ∧
      IssueKind.all.flatMap r.ofKind = r.issues ∧
      r.prototypeIds = {id | ∃ loaded ∈ c.prototypes, loaded.prototype.id? = some id}.ncard ∧
      r.referencedIds =
        {id | ∃ loaded ∈ c.prototypes, id ∈ loaded.prototype.references}.ncard ∧
      r.localeKeys = {key | locale.contains key = true}.ncard ∧
      (r.isOk = true ↔ Consistent c.prototypes locale) := by
  intro r
  have hordered : r.issues.Pairwise Issue.Precedes :=
    (issues_eq c locale).symm ▸ pairwise_findings c.census locale
  refine ⟨fun issue => mem_issues_iff, hordered, ?_, flatMap_ofKind c locale,
    prototypeIds_eq c locale, referencedIds_eq c locale, locale.keys.size_eq_ncard, ?_⟩
  · exact List.Pairwise.map _ (fun _ _ h => h.ne) hordered
  · rw [isOk_iff_forall]
    exact ⟨consistent_of_forall, Consistent.not_finding⟩

end Report

end Station
