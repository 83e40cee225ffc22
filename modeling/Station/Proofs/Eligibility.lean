import Mathlib.Data.Set.Lattice
import Station.Mind.Check
import Station.Proofs.Redefinition

/-!
# Who passes the mind filters

A filter lets a mind pass exactly if the mind holds a job that the filter lists, so a verdict
depends on two sets of jobs, those that are held and those that are listed
(`MindFilter.shouldRemove_iff_inter_eq_empty`). `Verdicts` collects what follows for one filter and for
several of them, whichever query answers what a mind holds (`verdicts_of_query`). A roster is such a
query, whatever was saved and deleted before (`RosterChange.held`), and a check of two lists of jobs
is one more verdict (`MindCheck.shouldRemove_of_iff`).
-/

namespace Station

/-- The jobs that a filter lists, in no order. -/
def MindFilter.listed (f : MindFilter) : Set JobId := {job | job ∈ f.blacklist}

/-- The jobs that a mind holds after some changes: those of its latest record, if that was not
deleted. -/
def RosterChange.held (changes : List RosterChange) (mind : MindId) : Set JobId :=
  {job | ∃ record, LastOf (leaves? mind) changes (some record) ∧ job ∈ record.jobs}

/-- What filters make of minds if the query tells which jobs a mind holds. -/
structure Verdicts (query : JobQuery) (held : MindId → Set JobId) : Prop where
  /-- The minds that hold a listed job of every filter are kept, where they stood and as often. -/
  retained : ∀ filters minds, ∃ keeps : MindId → Bool,
    retainAllowed filters query minds = minds.filter keeps ∧
      ∀ mind, keeps mind = true ↔ ∀ f ∈ filters, ∃ job ∈ f.blacklist, job ∈ held mind
  shouldRemove_iff : ∀ (f : MindFilter) mind,
    f.shouldRemove query mind = true ↔ held mind ∩ f.listed = ∅
  isAllowed_eq : ∀ (f : MindFilter) mind, f.isAllowed query mind = !f.shouldRemove query mind
  removed_of_jobless : ∀ (f : MindFilter) mind, held mind = ∅ → f.shouldRemove query mind = true
  removed_of_unlisted : ∀ mind, MindFilter.shouldRemove ⟨[]⟩ query mind = true
  retained_nil : ∀ minds, retainAllowed [] query minds = minds
  /-- Neither filters nor listed jobs have an order or a number. -/
  retained_congr : ∀ fs gs : List MindFilter,
    MindFilter.listed '' {f | f ∈ fs} = MindFilter.listed '' {g | g ∈ gs} →
      ∀ minds, retainAllowed fs query minds = retainAllowed gs query minds
  retained_in_turn : ∀ filters minds,
    filters.foldl (fun kept f => retainAllowed [f] query kept) minds =
      retainAllowed filters query minds
  retained_twice : ∀ filters minds,
    retainAllowed filters query (retainAllowed filters query minds) =
      retainAllowed filters query minds

/-! ## Filters -/

section Filters

variable {query : JobQuery} {f g : MindFilter} {fs gs : List MindFilter} {mind : MindId}

theorem MindFilter.isAllowed_iff :
    f.isAllowed query mind = true ↔ ∃ job ∈ f.listed, query mind job = true := by
  simp [isAllowed, shouldRemove, listed]

theorem MindFilter.inter_listed_eq_empty_iff {jobs : List JobId} :
    {job | job ∈ jobs} ∩ f.listed = ∅ ↔ jobs.Disjoint f.blacklist := by
  rw [Set.eq_empty_iff_forall_notMem]
  simp only [Set.mem_inter_iff, not_and]
  rfl

/-- A mind is turned away exactly if it holds no listed job. -/
theorem MindFilter.shouldRemove_iff_inter_eq_empty {held : Set JobId}
    (h : ∀ job, query mind job = true ↔ job ∈ held) :
    f.shouldRemove query mind = true ↔ held ∩ f.listed = ∅ := by
  rw [← Bool.not_eq_false', ← isAllowed, Bool.eq_false_iff, Ne, isAllowed_iff, Set.inter_comm,
    Set.eq_empty_iff_forall_notMem]
  simp only [h, not_exists, Set.mem_inter_iff]

theorem mem_retainAllowed_iff {minds : List MindId} :
    mind ∈ retainAllowed fs query minds ↔
      mind ∈ minds ∧ ∀ f ∈ fs, f.isAllowed query mind = true := by
  rw [retainAllowed, List.mem_filter, List.all_eq_true]

/-- More filters are asked about the minds that the others kept. -/
theorem retainAllowed_append (fs gs : List MindFilter) (query : JobQuery) (minds : List MindId) :
    retainAllowed (fs ++ gs) query minds =
      retainAllowed gs query (retainAllowed fs query minds) := by
  rw [retainAllowed, retainAllowed, retainAllowed, List.filter_filter]
  refine List.filter_congr fun mind _ => ?_
  rw [List.all_append, Bool.and_comm]

theorem foldl_retainAllowed (fs : List MindFilter) (query : JobQuery) (minds : List MindId) :
    fs.foldl (fun kept f => retainAllowed [f] query kept) minds = retainAllowed fs query minds := by
  induction fs generalizing minds with
  | nil => simp [retainAllowed]
  | cons f fs ih =>
    rw [List.foldl_cons, ih, ← retainAllowed_append]
    rfl

theorem retainAllowed_retainAllowed (fs : List MindFilter) (query : JobQuery)
    (minds : List MindId) :
    retainAllowed fs query (retainAllowed fs query minds) = retainAllowed fs query minds := by
  refine List.filter_eq_self.2 fun mind hmem => ?_
  exact List.all_eq_true.2 (mem_retainAllowed_iff.1 hmem).2

/-- Only the sets of jobs that the filters list make a difference. -/
theorem retainAllowed_congr
    (h : MindFilter.listed '' {f | f ∈ fs} = MindFilter.listed '' {g | g ∈ gs})
    (query : JobQuery) (minds : List MindId) :
    retainAllowed fs query minds = retainAllowed gs query minds := by
  have hsets : ∀ (filters : List MindFilter) mind,
      (filters.all fun f => f.isAllowed query mind) = true ↔
        ∀ jobs ∈ MindFilter.listed '' {f | f ∈ filters}, ∃ job ∈ jobs, query mind job = true := by
    intro filters mind
    simp only [List.all_eq_true, MindFilter.isAllowed_iff, Set.forall_mem_image, Set.mem_ofPred_eq]
  refine List.filter_congr fun mind _ => ?_
  rw [Bool.eq_iff_iff, hsets, hsets, h]

end Filters

/-! ## Verdicts -/

/-- All that filters make of minds follows from the jobs that the minds hold. -/
theorem verdicts_of_query {query : JobQuery} {held : MindId → Set JobId}
    (h : ∀ mind job, query mind job = true ↔ job ∈ held mind) : Verdicts query held := by
  have hallowed : ∀ (f : MindFilter) mind,
      f.isAllowed query mind = true ↔ ∃ job ∈ f.blacklist, job ∈ held mind := by
    intro f mind
    simp only [MindFilter.isAllowed_iff, h]
    rfl
  have hremoved : ∀ (f : MindFilter) mind,
      f.shouldRemove query mind = true ↔ held mind ∩ f.listed = ∅ :=
    fun f mind => MindFilter.shouldRemove_iff_inter_eq_empty (h mind)
  constructor
  case retained =>
    intro filters minds
    refine ⟨_, rfl, fun mind => ?_⟩
    simp only [List.all_eq_true, hallowed]
  case shouldRemove_iff => exact hremoved
  case isAllowed_eq => exact fun f mind => rfl
  case removed_of_jobless =>
    intro f mind hjobless
    rw [hremoved, hjobless]
    exact Set.empty_inter _
  case removed_of_unlisted => exact fun mind => rfl
  case retained_nil => exact fun minds => List.filter_eq_self.2 fun mind _ => rfl
  case retained_congr => exact fun fs gs hsets => retainAllowed_congr hsets query
  case retained_in_turn => exact fun fs => foldl_retainAllowed fs query
  case retained_twice => exact fun fs => retainAllowed_retainAllowed fs query

/-- The latest record of a mind says what the mind holds. -/
theorem RosterChange.held_of_lastOf {changes : List RosterChange} {mind : MindId}
    {left : Option Mind} (h : LastOf (leaves? mind) changes left) :
    held changes mind = {job | ∃ record, left = some record ∧ job ∈ record.jobs} := by
  simp only [held, ← getLast?_filterMap_eq_some_iff, getLast?_filterMap_eq_some_iff.2 h,
    Option.some.injEq]

/-! ## Checks -/

namespace Mind

theorem mem_jobs_assign {m : Mind} {job probe : JobId} :
    probe ∈ (m.assign job).jobs ↔ probe ∈ m.jobs ∨ probe = job := by
  rw [assign, hasJob]
  split
  · rename_i hheld
    have hmem : job ∈ m.jobs := by simpa using hheld
    constructor
    · exact Or.inl
    · rintro (hprobe | rfl)
      · exact hprobe
      · exact hmem
  · simp

/-- A mind that takes some jobs holds these and the ones it held before. -/
theorem mem_jobs_assignAll {m : Mind} {jobs : List JobId} {probe : JobId} :
    probe ∈ (m.assignAll jobs).jobs ↔ probe ∈ m.jobs ∨ probe ∈ jobs := by
  induction jobs generalizing m with
  | nil => simp [assignAll]
  | cons job jobs ih =>
    rw [assignAll, List.foldl_cons, ← assignAll, ih, mem_jobs_assign, List.mem_cons, or_assoc]

theorem id_assignAll (m : Mind) (jobs : List JobId) : (m.assignAll jobs).id = m.id := by
  induction jobs generalizing m with
  | nil => rfl
  | cons job jobs ih =>
    rw [assignAll, List.foldl_cons, ← assignAll, ih, assign]
    split <;> rfl

end Mind

theorem MindRoster.holds_save {r : MindRoster} {m : Mind} {job : JobId} :
    (r.save m).holds m.id job = true ↔ job ∈ m.jobs := by
  simp [holds, find?, save, Table.get?_insert, Mind.hasJob]

/-- A check is the verdict on a mind that was saved with the given jobs. -/
theorem MindCheck.shouldRemove_of_iff (jobs blacklist : List JobId) :
    (MindCheck.of jobs blacklist).shouldRemove = true ↔ jobs.Disjoint blacklist := by
  let mind : Mind := { id := "cli", characterName := "cli" }
  have hheld : ∀ job, (({} : MindRoster).save (mind.assignAll jobs)).holds mind.id job = true ↔
      job ∈ {job | job ∈ jobs} := by
    intro job
    rw [← Mind.id_assignAll mind jobs, MindRoster.holds_save, Mind.mem_jobs_assignAll]
    exact or_iff_right List.not_mem_nil
  exact (MindFilter.shouldRemove_iff_inter_eq_empty hheld).trans
    MindFilter.inter_listed_eq_empty_iff

/-! ## All histories -/

/-- Whatever minds were saved and deleted, the filters decide by the latest records: they keep the
minds that hold a listed job of every filter. A mind without a record holds nothing. A check of some
jobs against others is the verdict on every mind that holds just these jobs. -/
theorem verdicts_of_every_history (changes : List RosterChange) :
    let query := (({} : MindRoster).after changes).holds
    let held := RosterChange.held changes
    Verdicts query held ∧
      (∀ mind, (∀ record, ¬ LastOf (RosterChange.leaves? mind) changes (some record)) →
        held mind = ∅) ∧
      ∀ jobs blacklist,
        let check := MindCheck.of jobs blacklist
        check.jobs = jobs ∧ check.blacklist = blacklist ∧
          (check.shouldRemove = true ↔ jobs.Disjoint blacklist) ∧
          check.isAllowed = !check.shouldRemove ∧
          ∀ mind, held mind = {job | job ∈ jobs} →
            MindFilter.shouldRemove ⟨blacklist⟩ query mind = check.shouldRemove := by
  intro query held
  have hverdicts : Verdicts query held := verdicts_of_query fun _ _ => MindRoster.holds_after_iff
  refine ⟨hverdicts, ?_, ?_⟩
  · intro mind hunknown
    refine Set.eq_empty_of_forall_notMem ?_
    rintro job ⟨record, hrecord, -⟩
    exact hunknown record hrecord
  · intro jobs blacklist check
    refine ⟨rfl, rfl, MindCheck.shouldRemove_of_iff jobs blacklist, rfl, fun mind hmind => ?_⟩
    rw [Bool.eq_iff_iff, hverdicts.shouldRemove_iff, hmind, MindCheck.shouldRemove_of_iff]
    exact MindFilter.inter_listed_eq_empty_iff

/-- One mind changed its jobs and one was deleted. -/
def hirings : List RosterChange :=
  [.save { id := "M", characterName := "M", jobs := ["cook"] },
    .save { id := "N", characterName := "N", jobs := ["cook"] },
    .save { id := "M", characterName := "M", jobs := ["guard", "clerk"] }, .delete "N"]

theorem verdicts_of_every_history_hirings :
    let query := (({} : MindRoster).after hirings).holds
    MindFilter.shouldRemove ⟨["cook"]⟩ query "N" = true ∧
      MindFilter.shouldRemove ⟨["cook", "clerk"]⟩ query "M" =
        (MindCheck.of ["clerk", "guard"] ["cook", "clerk"]).shouldRemove ∧
      retainAllowed [⟨["guard"]⟩, ⟨["clerk", "cook"]⟩] query ["M", "N", "M"] =
        retainAllowed [⟨["cook", "clerk", "cook"]⟩, ⟨["guard"]⟩, ⟨["guard"]⟩] query
          ["M", "N", "M"] := by
  obtain ⟨hverdicts, hunknown, hcheck⟩ := verdicts_of_every_history hirings
  have hdeleted : (hirings.filterMap (RosterChange.leaves? "N")).getLast? = some none := rfl
  have hsaved : LastOf (RosterChange.leaves? "M") hirings
      (some { id := "M", characterName := "M", jobs := ["guard", "clerk"] }) :=
    getLast?_filterMap_eq_some_iff.1 rfl
  refine ⟨?_, ?_, ?_⟩
  · refine hverdicts.removed_of_jobless _ "N" (hunknown "N" fun record hlast => ?_)
    rw [← getLast?_filterMap_eq_some_iff, hdeleted] at hlast
    cases hlast
  · refine (hcheck ["clerk", "guard"] ["cook", "clerk"]).2.2.2.2 "M" ?_
    rw [RosterChange.held_of_lastOf hsaved]
    ext job
    simp [or_comm]
  · have hlisted : MindFilter.listed ⟨["cook", "clerk", "cook"]⟩ =
        MindFilter.listed ⟨["clerk", "cook"]⟩ := by
      ext job
      simp only [MindFilter.listed, Set.mem_ofPred_eq, List.mem_cons, List.not_mem_nil, or_false]
      tauto
    refine hverdicts.retained_congr _ _ ?_ _
    ext jobs
    simp [hlisted, or_comm]

end Station
