import Mathlib.Data.List.Induction
import Station.Proofs.Eligibility

/-!
# How long jobs are held

A mind is given jobs and loses them again. Its list of jobs follows from this history alone: it has
the jobs of which the last call was an assignment (`JobCall.Held`), in the order in which the mind
has come to hold them (`JobCall.HeldSince`). A job that was held all the time counts from its first
assignment, and one that was lost in between from the first assignment after that.

`Mind.Remembers` is this for a mind and a history. One more call keeps it, and every mind begins
with no jobs and an empty history. That no job is listed twice follows from the order, since a
holding has only one beginning (`JobCall.HeldSince.unique`).
-/

namespace Station

/-- A call that changes the jobs of a mind. -/
inductive JobCall where
  /-- Give a job. -/
  | assign (job : JobId)
  /-- Take a job away. -/
  | revoke (job : JobId)
  deriving DecidableEq

namespace JobCall

/-- Whether a job is held after a call that names it. -/
def leaves? (job : JobId) : JobCall → Option Bool
  | .assign named => if named = job then some true else none
  | .revoke named => if named = job then some false else none

/-- Of the calls that name a job, the last one was an assignment. -/
def Held (calls : List JobCall) (job : JobId) : Prop := LastOf (leaves? job) calls true

/-- A job is held without interruption since the call at a position: it was assigned there to a mind
that did not hold it, and not revoked later. -/
def HeldSince (calls : List JobCall) (job : JobId) (position : Nat) : Prop :=
  ∃ before later, calls = before ++ .assign job :: later ∧ before.length = position ∧
    ¬ Held before job ∧ .revoke job ∉ later

/-- Two jobs are held, and the current holding of the first is the older one. -/
def HeldLonger (calls : List JobCall) (a b : JobId) : Prop :=
  ∃ p q, HeldSince calls a p ∧ HeldSince calls b q ∧ p < q

variable {calls later : List JobCall} {call : JobCall} {job other a b : JobId} {m n : Nat}

/-! ## What is held -/

theorem not_held_nil : ¬ Held [] job := by
  rw [Held, ← getLast?_filterMap_eq_some_iff]
  exact nofun

theorem held_assign_iff : Held (calls ++ [.assign other]) job ↔ Held calls job ∨ job = other := by
  rw [Held, lastOf_concat_iff, ← Held, leaves?, or_comm]
  by_cases h : other = job
  · simp [h]
  · simp [h, Ne.symm h]

theorem held_revoke_iff : Held (calls ++ [.revoke other]) job ↔ Held calls job ∧ job ≠ other := by
  rw [Held, lastOf_concat_iff, ← Held, leaves?, and_comm]
  by_cases h : other = job
  · simp [h]
  · simp [h, Ne.symm h]

/-- A job is held until it is revoked. -/
theorem Held.append (h : Held calls job) (hlater : .revoke job ∉ later) :
    Held (calls ++ later) job := by
  induction later using List.reverseRecOn with
  | nil => rwa [List.append_nil]
  | append_singleton later call ih =>
    rw [List.mem_append, List.mem_singleton, not_or] at hlater
    rw [← List.append_assoc]
    cases call with
    | assign other => exact held_assign_iff.2 (Or.inl (ih hlater.1))
    | revoke other =>
      exact held_revoke_iff.2 ⟨ih hlater.1, fun hjob => hlater.2 (congrArg revoke hjob)⟩

theorem held_of_assign {before : List JobCall} (hlater : .revoke job ∉ later) :
    Held (before ++ .assign job :: later) job := by
  rw [List.append_cons]
  exact (held_assign_iff.2 (Or.inr rfl)).append hlater

/-- A job is not held until it is assigned. -/
theorem not_held_append (h : ¬ Held calls job) (hlater : .assign job ∉ later) :
    ¬ Held (calls ++ later) job := by
  induction later using List.reverseRecOn with
  | nil => rwa [List.append_nil]
  | append_singleton later call ih =>
    rw [List.mem_append, List.mem_singleton, not_or] at hlater
    rw [← List.append_assoc]
    cases call with
    | assign other =>
      rw [held_assign_iff, not_or]
      exact ⟨ih hlater.1, fun hjob => hlater.2 (congrArg assign hjob)⟩
    | revoke other =>
      rw [held_revoke_iff]
      exact fun hheld => ih hlater.1 hheld.1

/-! ## Since when it is held -/

theorem HeldSince.held (h : HeldSince calls job n) : Held calls job := by
  obtain ⟨before, later, rfl, -, -, hlater⟩ := h
  exact held_of_assign hlater

theorem HeldSince.lt_length (h : HeldSince calls job n) : n < calls.length := by
  obtain ⟨before, later, rfl, rfl, -, -⟩ := h
  simp

/-- No holding begins during another one of the same job. -/
theorem HeldSince.le (hm : HeldSince calls job m) (hn : HeldSince calls job n) : n ≤ m := by
  obtain ⟨before, later, hcalls, rfl, -, hlater⟩ := hm
  obtain ⟨before', later', rfl, rfl, hbefore', -⟩ := hn
  rcases List.append_eq_append_iff.1 hcalls with ⟨between, rfl, -⟩ | ⟨between, rfl, hbetween⟩
  · simp
  · cases between with
    | nil => simp
    | cons call between =>
      -- the job was held from the first beginning up to the second
      obtain ⟨rfl, rfl⟩ := List.cons.inj hbetween
      exact absurd (held_of_assign fun hmem => hlater (List.mem_append_left _ hmem)) hbefore'

/-- A current holding has one beginning. -/
theorem HeldSince.unique (hm : HeldSince calls job m) (hn : HeldSince calls job n) : m = n :=
  Nat.le_antisymm (hn.le hm) (hm.le hn)

/-- Only its revocation ends a holding. -/
theorem HeldSince.concat (h : HeldSince calls job n) (hcall : call ≠ .revoke job) :
    HeldSince (calls ++ [call]) job n := by
  obtain ⟨before, later, rfl, hposition, hbefore, hlater⟩ := h
  refine ⟨before, later ++ [call], List.append_assoc .., hposition, hbefore, ?_⟩
  rw [List.mem_append, List.mem_singleton, not_or]
  exact ⟨hlater, hcall.symm⟩

/-- A job that was not held is held since the call that assigns it. -/
theorem heldSince_length (h : ¬ Held calls job) :
    HeldSince (calls ++ [.assign job]) job calls.length :=
  ⟨calls, [], rfl, rfl, h, List.not_mem_nil⟩

theorem Held.exists_heldSince (h : Held calls job) : ∃ n, HeldSince calls job n := by
  induction calls using List.reverseRecOn with
  | nil => exact absurd h not_held_nil
  | append_singleton calls call ih =>
    by_cases hheld : Held calls job
    · obtain ⟨n, hn⟩ := ih hheld
      refine ⟨n, hn.concat ?_⟩
      rintro rfl
      exact (held_revoke_iff.1 h).2 rfl
    · cases call with
      | assign other =>
        obtain rfl := (held_assign_iff.1 h).resolve_left hheld
        exact ⟨calls.length, heldSince_length hheld⟩
      | revoke other => exact absurd (held_revoke_iff.1 h).1 hheld

theorem held_iff_existsUnique : Held calls job ↔ ∃! n, HeldSince calls job n := by
  constructor
  · intro h
    obtain ⟨n, hn⟩ := h.exists_heldSince
    exact ⟨n, hn, fun m hm => hm.unique hn⟩
  · rintro ⟨n, hn, -⟩
    exact hn.held

theorem HeldLonger.concat (h : HeldLonger calls a b) (ha : call ≠ .revoke a)
    (hb : call ≠ .revoke b) : HeldLonger (calls ++ [call]) a b := by
  obtain ⟨p, q, hp, hq, hlt⟩ := h
  exact ⟨p, q, hp.concat ha, hq.concat hb, hlt⟩

theorem HeldLonger.ne (h : HeldLonger calls a b) : a ≠ b := by
  rintro rfl
  obtain ⟨p, q, hp, hq, hlt⟩ := h
  exact hlt.ne (hp.unique hq)

end JobCall

namespace Mind

open JobCall

/-- A mind after a call. -/
def call (m : Mind) : JobCall → Mind
  | .assign job => m.assign job
  | .revoke job => (m.revoke job).2

/-- A mind after some calls. -/
def after (m : Mind) (calls : List JobCall) : Mind := calls.foldl call m

/-- A mind has the jobs that a history leaves it, and lists those first that it has held longer. -/
structure Remembers (m : Mind) (calls : List JobCall) : Prop where
  mem_jobs_iff : ∀ job, job ∈ m.jobs ↔ Held calls job
  pairwise_jobs : m.jobs.Pairwise (HeldLonger calls)

variable {m : Mind} {calls : List JobCall} {job : JobId}

/-! ## One call -/

theorem hasJob_iff : m.hasJob job = true ↔ job ∈ m.jobs := by simp [hasJob]

/-- A job that is held stays where it is when it is assigned. -/
theorem assign_of_mem (h : job ∈ m.jobs) : m.assign job = m := if_pos (hasJob_iff.2 h)

/-- Any other job comes last. -/
theorem assign_of_notMem (h : job ∉ m.jobs) :
    m.assign job = { m with jobs := m.jobs ++ [job] } := if_neg (mt hasJob_iff.1 h)

/-- The list gets shorter exactly if the job was in it. -/
theorem revoke_iff_mem : (m.revoke job).1 = true ↔ job ∈ m.jobs := by
  rw [revoke, bne_iff_ne, Ne, List.length_filter_eq_length_iff]
  simp

theorem mem_jobs_revoke_iff {probe : JobId} :
    probe ∈ (m.revoke job).2.jobs ↔ probe ∈ m.jobs ∧ probe ≠ job := by
  simp [revoke]

theorem eq_with_jobs_call (m : Mind) (c : JobCall) :
    m.call c = { m with jobs := (m.call c).jobs } := by
  cases c with
  | assign job =>
    rw [call, assign]
    split <;> rfl
  | revoke job => rfl

theorem remembers_nil (h : m.jobs = []) : m.Remembers [] where
  mem_jobs_iff job := by simp [h, not_held_nil]
  pairwise_jobs := by simp [h]

namespace Remembers

theorem assign (h : m.Remembers calls) (job : JobId) :
    (m.assign job).Remembers (calls ++ [.assign job]) := by
  constructor
  case mem_jobs_iff =>
    intro probe
    rw [mem_jobs_assign, h.mem_jobs_iff, held_assign_iff]
  case pairwise_jobs =>
    have hlonger : m.jobs.Pairwise (HeldLonger (calls ++ [.assign job])) :=
      h.pairwise_jobs.imp fun hab => hab.concat nofun nofun
    by_cases hmem : job ∈ m.jobs
    · rwa [assign_of_mem hmem]
    · rw [assign_of_notMem hmem, List.pairwise_append]
      refine ⟨hlonger, List.pairwise_singleton .., fun a ha b hb => ?_⟩
      obtain rfl := List.mem_singleton.1 hb
      -- every holding is older than the one that begins with this call
      obtain ⟨p, hp⟩ := ((h.mem_jobs_iff a).1 ha).exists_heldSince
      exact ⟨p, calls.length, hp.concat nofun, heldSince_length (mt (h.mem_jobs_iff b).2 hmem),
        hp.lt_length⟩

theorem revoke (h : m.Remembers calls) (job : JobId) :
    (m.revoke job).2.Remembers (calls ++ [.revoke job]) := by
  constructor
  case mem_jobs_iff =>
    intro probe
    rw [mem_jobs_revoke_iff, h.mem_jobs_iff, held_revoke_iff]
  case pairwise_jobs =>
    -- the jobs that are left are not the one that is revoked, so their holdings go on
    refine (h.pairwise_jobs.filter _).imp_of_mem fun ha hb hab => hab.concat ?_ ?_
    · rintro ⟨⟩
      exact (mem_jobs_revoke_iff.1 ha).2 rfl
    · rintro ⟨⟩
      exact (mem_jobs_revoke_iff.1 hb).2 rfl

theorem call (h : m.Remembers calls) (c : JobCall) : (m.call c).Remembers (calls ++ [c]) := by
  cases c with
  | assign job => exact h.assign job
  | revoke job => exact h.revoke job

theorem nodup (h : m.Remembers calls) : m.jobs.Nodup := h.pairwise_jobs.imp HeldLonger.ne

end Remembers

/-! ## All histories -/

theorem after_concat (m : Mind) (calls : List JobCall) (c : JobCall) :
    m.after (calls ++ [c]) = (m.after calls).call c := by
  rw [after, List.foldl_concat, ← after]

theorem after_append (m : Mind) (calls later : List JobCall) :
    m.after (calls ++ later) = (m.after calls).after later := List.foldl_append

theorem remembers_after (h : m.jobs = []) (calls : List JobCall) :
    (m.after calls).Remembers calls := by
  induction calls using List.reverseRecOn with
  | nil => exact remembers_nil h
  | append_singleton calls c ih =>
    rw [after_concat]
    exact ih.call c

theorem eq_with_jobs_after (m : Mind) (calls : List JobCall) :
    m.after calls = { m with jobs := (m.after calls).jobs } := by
  induction calls using List.reverseRecOn with
  | nil => rfl
  | append_singleton calls c ih =>
    rw [after_concat, eq_with_jobs_call, ih]

/-- After every history of calls a new mind holds the jobs of which the last call was an assignment,
each of them without interruption since one call. It lists no job twice and lists those first that
it has held longer. A revocation answers whether the job was held. Assigning a job that is held
changes nothing, and one that was revoked and not assigned since goes to the end. Nothing of the
mind changes but its jobs. -/
theorem jobs_of_every_history (id : MindId) (characterName : String) (calls : List JobCall) :
    let start : Mind := { id, characterName }
    let m := start.after calls
    m.jobs.Nodup ∧
      (∀ job, m.hasJob job = true ↔ Held calls job) ∧
      (∀ job, (m.revoke job).1 = true ↔ m.hasJob job = true) ∧
      (∀ job, m.hasJob job = true ↔ ∃! n, HeldSince calls job n) ∧
      m.jobs.Pairwise (HeldLonger calls) ∧
      (∀ job, m.hasJob job = true → m.assign job = m) ∧
      (∀ job between, JobCall.assign job ∉ between →
        let left := m.after (.revoke job :: between)
        (left.assign job).jobs = left.jobs ++ [job]) ∧
      m = { start with jobs := m.jobs } := by
  intro start m
  have h : m.Remembers calls := remembers_after rfl calls
  have hheld : ∀ job, m.hasJob job = true ↔ Held calls job := fun job =>
    hasJob_iff.trans (h.mem_jobs_iff job)
  refine ⟨h.nodup, hheld, fun job => revoke_iff_mem.trans hasJob_iff.symm,
    fun job => (hheld job).trans held_iff_existsUnique, h.pairwise_jobs,
    fun job hjob => assign_of_mem (hasJob_iff.1 hjob), ?_, eq_with_jobs_after start calls⟩
  intro job between hbetween left
  have hleft : left.Remembers (calls ++ .revoke job :: between) := by
    show ((start.after calls).after (.revoke job :: between)).Remembers _
    rw [← after_append]
    exact remembers_after rfl _
  have hrevoked : ¬ Held (calls ++ .revoke job :: between) job := by
    rw [List.append_cons]
    exact not_held_append (fun hlast => (held_revoke_iff.1 hlast).2 rfl) hbetween
  rw [assign_of_notMem (mt (hleft.mem_jobs_iff job).1 hrevoked)]

/-- A job that is assigned twice keeps its place until it is revoked, and loses it then. -/
theorem jobs_of_every_history_rehired :
    let m := Mind.after { id := "M", characterName := "Urist" }
      [.assign "cook", .assign "guard", .assign "cook"]
    m.hasJob "cook" = true ∧ (m.revoke "cook").1 = true ∧ m.assign "cook" = m ∧
      m.jobs = ["cook", "guard"] ∧
      JobCall.assign "cook" ∉ [JobCall.assign "clerk"] ∧
      ((m.after [.revoke "cook", .assign "clerk"]).assign "cook").jobs =
        ["guard", "clerk", "cook"] := by
  intro m
  obtain ⟨-, -, hrevoke, -, -, hassign, hlast, -⟩ := jobs_of_every_history "M" "Urist"
    [.assign "cook", .assign "guard", .assign "cook"]
  have hcook : m.hasJob "cook" = true := rfl
  have hclerk : JobCall.assign "cook" ∉ [JobCall.assign "clerk"] := by decide
  exact ⟨hcook, (hrevoke "cook").2 hcook, hassign "cook" hcook, rfl, hclerk,
    hlast "cook" [.assign "clerk"] hclerk⟩

end Mind

end Station
