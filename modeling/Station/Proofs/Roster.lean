import Mathlib.Logic.Function.Basic
import Station.Proofs.Redefinition

/-!
# The roster as a map

A roster answers five queries, each by a way of its own. After every history of changes they all
answer from one finite map from ids to records (`MindRoster.AnswersFrom`): the record that was saved
last under an id, unless it was deleted since (`RosterChange.kept_eq_some_iff`).

What makes the queries agree is that a roster stores each record under its own id
(`MindRoster.Keyed`), which every change keeps.
-/

namespace Station

namespace RosterChange

/-- The mind that a change is about. -/
def subject : RosterChange → MindId
  | .save record => record.id
  | .delete id => id

/-- A map from ids to records after a change. -/
def apply (m : MindId → Option Mind) : RosterChange → MindId → Option Mind
  | .save record => Function.update m record.id (some record)
  | .delete id => Function.update m id none

/-- The map from ids to records that some changes make, beginning with no records. -/
def kept (changes : List RosterChange) : MindId → Option Mind := changes.foldl apply fun _ => none

variable {c : RosterChange} {changes : List RosterChange} {id : MindId} {record : Mind}

theorem leaves?_eq_none_iff : c.leaves? id = none ↔ c.subject ≠ id := by
  cases c with
  | save record => simp [leaves?, subject]
  | delete other => simp [leaves?, subject]

theorem leaves?_eq_record_iff :
    c.leaves? id = some (some record) ↔ c = .save record ∧ record.id = id := by
  cases c with
  | save saved =>
    simp only [leaves?, Option.ite_none_right_eq_some, Option.some.injEq, save.injEq]
    constructor
    · rintro ⟨hid, rfl⟩
      exact ⟨rfl, hid⟩
    · rintro ⟨rfl, hid⟩
      exact ⟨hid, rfl⟩
  | delete other => simp [leaves?]

theorem kept_concat (changes : List RosterChange) (c : RosterChange) :
    kept (changes ++ [c]) = c.apply (kept changes) := by
  rw [kept, List.foldl_concat, ← kept]

end RosterChange

namespace MindRoster

/-- Each record is stored under its own id. -/
def Keyed (r : MindRoster) : Prop := ∀ id record, r.find? id = some record → record.id = id

/-- All queries answer from one map from ids to records. -/
structure AnswersFrom (r : MindRoster) (m : MindId → Option Mind) : Prop where
  find?_eq : ∀ id, r.find? id = m id
  /-- What is listed are the records of the map. -/
  mem_list_iff : ∀ record, record ∈ r.list ↔ m record.id = some record
  /-- An id of the map is listed. -/
  mem_ids_iff : ∀ id, id ∈ r.list.map Mind.id ↔ (m id).isSome = true
  /-- No id is listed twice. -/
  nodup_ids : (r.list.map Mind.id).Nodup
  count_eq : r.count = r.list.length
  withJob_eq : ∀ job, r.withJob job = r.list.filter fun record => decide (job ∈ record.jobs)
  holds_iff : ∀ id job, r.holds id job = true ↔ ∃ record ∈ r.withJob job, record.id = id

variable {r : MindRoster} {c : RosterChange} {changes : List RosterChange} {id : MindId}
  {record : Mind}

/-! ## Changes -/

theorem ext_find? {r s : MindRoster} (h : ∀ id, r.find? id = s.find? id) : r = s :=
  congrArg mk (Table.ext_get? h)

/-- A change does to the records what it does to a map. -/
theorem find?_change_eq (r : MindRoster) (c : RosterChange) :
    (r.change c).find? = c.apply r.find? := by
  funext id
  cases c with
  | save record =>
    rw [change, save, find?, Table.get?_insert, RosterChange.apply, Function.update_apply]
    rfl
  | delete other =>
    rw [change, delete, find?, Table.get?_erase, RosterChange.apply, Function.update_apply]
    rfl

theorem find?_after_eq_kept (changes : List RosterChange) :
    (({} : MindRoster).after changes).find? = RosterChange.kept changes := by
  induction changes using List.reverseRecOn with
  | nil => rfl
  | append_singleton changes c ih =>
    rw [after, List.foldl_concat, ← after, find?_change_eq, ih, RosterChange.kept_concat]

theorem Keyed.change (h : r.Keyed) (c : RosterChange) : (r.change c).Keyed := by
  intro id record hfind
  rw [find?_change_eq] at hfind
  cases c with
  | save saved =>
    rw [RosterChange.apply, Function.update_apply] at hfind
    split at hfind
    · rename_i hid
      rw [hid, Option.some.inj hfind]
    · exact h id record hfind
  | delete other =>
    rw [RosterChange.apply, Function.update_apply] at hfind
    split at hfind
    · cases hfind
    · exact h id record hfind

theorem keyed_after (changes : List RosterChange) : (({} : MindRoster).after changes).Keyed := by
  induction changes using List.reverseRecOn with
  | nil =>
    intro id record hfind
    cases hfind
  | append_singleton changes c ih =>
    rw [after, List.foldl_concat]
    exact ih.change c

/-- A record that is saved leaves no trace of an older one of the same mind. -/
theorem save_save (r : MindRoster) {older : Mind} (h : older.id = record.id) :
    (r.save older).save record = r.save record := by
  refine ext_find? fun id => congrFun ?_ id
  calc ((r.save older).save record).find?
      = RosterChange.apply (RosterChange.apply r.find? (.save older)) (.save record) := by
        rw [← find?_change_eq, ← find?_change_eq]
        rfl
    _ = RosterChange.apply r.find? (.save record) := by
        rw [RosterChange.apply, RosterChange.apply, RosterChange.apply, h, Function.update_idem]
    _ = (r.save record).find? := (find?_change_eq r (.save record)).symm

theorem delete_of_find?_eq_none (h : r.find? id = none) : r.delete id = r :=
  congrArg mk (Table.erase_of_get?_eq_none h)

/-! ## Queries -/

theorem mem_list_iff_exists : record ∈ r.list ↔ ∃ id, r.find? id = some record := by
  simp only [list, List.mem_map, Prod.exists, exists_eq_right, Table.mem_rows_iff]
  rfl

/-- The ids of the listed records are the keys under which they are stored. -/
theorem Keyed.ids_eq (h : r.Keyed) : r.list.map Mind.id = r.minds.keys := by
  rw [list, List.map_map, Table.keys]
  refine List.map_congr_left fun row hrow => ?_
  exact h row.1 row.2 ((r.minds.mem_rows_iff _ _).1 hrow)

theorem holds_iff_exists {job : JobId} :
    r.holds id job = true ↔ ∃ record, r.find? id = some record ∧ job ∈ record.jobs := by
  rw [holds]
  cases r.find? id <;> simp [Mind.hasJob]

/-- If each record is stored under its own id, all queries answer from one map. -/
theorem Keyed.answersFrom (h : r.Keyed) : r.AnswersFrom r.find? := by
  -- a listed record is stored under some id, and that one can only be its own
  have hlist : ∀ record, record ∈ r.list ↔ r.find? record.id = some record := by
    intro record
    rw [mem_list_iff_exists]
    constructor
    · rintro ⟨id, hfind⟩
      rw [h id record hfind, hfind]
    · exact fun hfind => ⟨record.id, hfind⟩
  have hjob : ∀ job, r.withJob job = r.list.filter fun record => decide (job ∈ record.jobs) := by
    intro job
    refine List.filter_congr fun record _ => ?_
    rw [Mind.hasJob, List.any_beq', List.contains_eq_mem]
  constructor
  case find?_eq => exact fun id => rfl
  case mem_list_iff => exact hlist
  case mem_ids_iff =>
    intro id
    rw [h.ids_eq, Table.mem_keys_iff]
    rfl
  case nodup_ids =>
    rw [h.ids_eq]
    exact r.minds.keys_nodup
  case count_eq => rw [count, list, List.length_map, Table.size]
  case withJob_eq => exact hjob
  case holds_iff =>
    intro id job
    rw [holds_iff_exists, hjob]
    simp only [List.mem_filter, decide_eq_true_eq, hlist]
    constructor
    · rintro ⟨record, hfind, hmem⟩
      obtain rfl := h id record hfind
      exact ⟨record, ⟨hfind, hmem⟩, rfl⟩
    · rintro ⟨record, ⟨hfind, hmem⟩, rfl⟩
      exact ⟨record, hfind, hmem⟩

end MindRoster

/-- The map keeps the record that was saved last under an id, unless it was deleted since. -/
theorem RosterChange.kept_eq_some_iff {changes : List RosterChange} {id : MindId} {record : Mind} :
    kept changes id = some record ↔
      ∃ before since, changes = before ++ .save record :: since ∧ record.id = id ∧
        ∀ later ∈ since, later.subject ≠ id := by
  rw [← MindRoster.find?_after_eq_kept, MindRoster.find?_after, Option.join_eq_some_iff,
    getLast?_filterMap_eq_some_iff, LastOf]
  simp only [leaves?_eq_none_iff, leaves?_eq_record_iff]
  constructor
  · rintro ⟨before, -, since, hchanges, ⟨rfl, hid⟩, hsince⟩
    exact ⟨before, since, hchanges, hid, hsince⟩
  · rintro ⟨before, since, hchanges, hid, hsince⟩
    exact ⟨before, _, since, hchanges, ⟨rfl, hid⟩, hsince⟩

/-! ## All histories -/

namespace MindRoster

/-- After every history of changes all queries of a roster answer from one finite map, which has for
each id the record that was saved last under it, unless it was deleted since. One more record takes
the place of the whole record of its mind and of no other, and a deletion takes away one record and
nothing else, so that without a record it changes nothing. -/
theorem queries_of_every_history (changes : List RosterChange) :
    let r := ({} : MindRoster).after changes
    let m := RosterChange.kept changes
    (∀ id record, m id = some record ↔
        ∃ before since, changes = before ++ .save record :: since ∧ record.id = id ∧
          ∀ later ∈ since, later.subject ≠ id) ∧
      {id | (m id).isSome = true}.Finite ∧
      r.AnswersFrom m ∧
      (∀ record, (r.save record).AnswersFrom (Function.update m record.id (some record)) ∧
        ∀ older : Mind, older.id = record.id → (r.save older).save record = r.save record) ∧
      ∀ id, (r.delete id).AnswersFrom (Function.update m id none) ∧
        (m id = none → r.delete id = r) := by
  intro r m
  have hkeyed : r.Keyed := keyed_after changes
  have hfind : r.find? = m := find?_after_eq_kept changes
  have hchange : ∀ c : RosterChange, (r.change c).AnswersFrom (c.apply m) := by
    intro c
    rw [← hfind, ← find?_change_eq]
    exact (hkeyed.change c).answersFrom
  refine ⟨fun id record => RosterChange.kept_eq_some_iff, ?_, ?_, fun record => ?_, fun id => ?_⟩
  · rw [← hfind]
    exact r.minds.finite_contains
  · rw [← hfind]
    exact hkeyed.answersFrom
  · exact ⟨hchange (.save record), fun older => r.save_save⟩
  · refine ⟨hchange (.delete id), fun hnone => delete_of_find?_eq_none ?_⟩
    rw [hfind]
    exact hnone

/-- A mind that changed its name, its jobs and its body, and one that was deleted. -/
def careers : List RosterChange :=
  [.save { id := "M", characterName := "Urist", jobs := ["cook"], ownedEntity := some ⟨7⟩ },
    .save { id := "N", characterName := "Bob", jobs := ["cook"] },
    .save { id := "M", characterName := "Jane", jobs := ["clerk"] }, .delete "N"]

theorem queries_of_every_history_careers :
    let r := ({} : MindRoster).after careers
    let fresh : Mind := { id := "M", characterName := "Jane", jobs := ["clerk"] }
    let stale : Mind := { id := "M", characterName := "Urist", jobs := ["cook"] }
    r.find? "M" = some fresh ∧ fresh ∈ r.list ∧ stale ∉ r.list ∧ r.holds "M" "cook" = false ∧
      (r.save stale).save fresh = r.save fresh ∧ r.delete "N" = r := by
  intro r fresh stale
  obtain ⟨hkept, -, hanswers, hsave, hdelete⟩ := queries_of_every_history careers
  have hfresh : RosterChange.kept careers "M" = some fresh :=
    (hkept "M" fresh).2 ⟨[_, _], [.delete "N"], rfl, rfl, by simp [RosterChange.subject]⟩
  refine ⟨(hanswers.find?_eq "M").trans hfresh, (hanswers.mem_list_iff fresh).2 hfresh, ?_, ?_,
    (hsave fresh).2 stale rfl, (hdelete "N").2 rfl⟩
  · intro hmem
    have hsame := hfresh.symm.trans ((hanswers.mem_list_iff stale).1 hmem)
    exact absurd (Option.some.inj hsame) (by decide)
  · rw [Bool.eq_false_iff, Ne, hanswers.holds_iff]
    rintro ⟨record, hmem, hid⟩
    rw [hanswers.withJob_eq, List.mem_filter, hanswers.mem_list_iff, hid, hfresh] at hmem
    obtain ⟨hrecord, hjob⟩ := hmem
    obtain rfl := Option.some.inj hrecord
    exact absurd hjob (by decide)

end MindRoster

end Station
