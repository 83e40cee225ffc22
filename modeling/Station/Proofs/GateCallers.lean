import Mathlib.Data.List.Nodup
import Mathlib.Logic.Function.Basic
import Station.JoinQueue.Gate

/-!
# Callers of the join-queue gate

Any number of callers use one gate, each of them making its calls one after the other. A call takes
one atomic step or two, and a schedule names the caller whose step comes next, so the two steps of a
call may have any steps of other callers between them.

What a step does to the phases is one of a few moves (`GateMove`). `Tracks` is what holds of the
callers and of what has happened so far: the stages entered so far are those on the way to the stage
of the gate, and at most one caller has claimed a phase that it has yet to publish. Each step keeps
it (`Tracks.step`). An event is the step of some caller after part of the schedule
(`exists_of_history_eq`), so what holds then decides what a call may answer.

Calls that are made one after the other are one such schedule (`exists_schedule`).
-/

namespace Station

/-- A call on the gate. -/
inductive GateCall where
  /-- Runs the first phase. -/
  | init
  /-- Runs the second phase. -/
  | postInit
  /-- Asks for the phase. -/
  | phase
  /-- Reports the counts of players. -/
  | report (queued connected : UInt64)
  /-- Asks for a view of the gate. -/
  | status
  deriving DecidableEq, Repr

/-- What a call answers. -/
inductive GateAnswer where
  /-- Whether the first phase has run. -/
  | init (result : Except JoinQueueError Unit)
  /-- Whether the second phase has run. -/
  | postInit (result : Except JoinQueueError Unit)
  /-- The phase. -/
  | phase (phase : JoinQueuePhase)
  /-- The counts are stored. -/
  | report
  /-- The view of the gate. -/
  | status (view : JoinQueueStatus)
  deriving DecidableEq

/-- An atomic step and what came of it. -/
inductive GateEvent where
  /-- The exchange that claims the first phase. -/
  | claimInit (result : Except JoinQueueError Unit)
  /-- The store that publishes the first phase. -/
  | publishInit
  /-- The exchange that claims the second phase. -/
  | claimPostInit (result : Except JoinQueueError Unit)
  /-- The store that publishes the second phase. -/
  | publishPostInit
  /-- The load of the phase. -/
  | loadPhase (phase : JoinQueuePhase)
  /-- The store of the first count. -/
  | storeQueued (queued : UInt64)
  /-- The store of the second count. -/
  | storeConnected (connected : UInt64)
  /-- The load of the first count. -/
  | loadQueued (queued : UInt64)
  /-- The load of the second count, which completes a view. -/
  | loadConnected (view : JoinQueueStatus)
  deriving DecidableEq

/-- What a caller has yet to do in the call that it is in. -/
inductive GateTask where
  /-- Nothing, it is in no call. -/
  | idle
  /-- To publish the first phase. -/
  | publishInit
  /-- To publish the second phase. -/
  | publishPostInit
  /-- To store the second count. -/
  | storeConnected (connected : UInt64)
  /-- To load the second count, after the first one was loaded. -/
  | loadConnected (queued : UInt64)
  deriving DecidableEq, Repr

/-- Why a call has failed, if it has. -/
def GateAnswer.failure? : GateAnswer → Option JoinQueueError
  | .init (.error e) | .postInit (.error e) => some e
  | .init (.ok ()) | .postInit (.ok ()) | .phase _ | .report | .status _ => none

namespace GateEvent

/-- The answer with which a call returns after a step, if it does. -/
def answer? : GateEvent → Option GateAnswer
  | .claimInit (.error e) => some (.init (.error e))
  | .publishInit => some (.init (.ok ()))
  | .claimPostInit (.error e) => some (.postInit (.error e))
  | .publishPostInit => some (.postInit (.ok ()))
  | .loadPhase phase => some (.phase phase)
  | .storeConnected _ => some .report
  | .loadConnected view => some (.status view)
  | .claimInit (.ok ()) | .claimPostInit (.ok ()) | .storeQueued _ | .loadQueued _ => none

/-- The stage that a step brings the gate to, if it moves it. -/
def enters? : GateEvent → Option GateStage
  | .claimInit (.ok ()) => some .initializing
  | .publishInit => some .initialized
  | .claimPostInit (.ok ()) => some .postInitializing
  | .publishPostInit => some .postInitialized
  | .claimInit (.error _) | .claimPostInit (.error _) | .loadPhase _ | .storeQueued _
  | .storeConnected _ | .loadQueued _ | .loadConnected _ => none

/-- The phase that a step reports, if it reports one. -/
def phase? : GateEvent → Option JoinQueuePhase
  | .loadPhase phase => some phase
  | .claimInit _ | .publishInit | .claimPostInit _ | .publishPostInit | .storeQueued _
  | .storeConnected _ | .loadQueued _ | .loadConnected _ => none

end GateEvent

/-- The first step of a call, with what it leaves to do. -/
def GateCall.begin (g : Gate) : GateCall → GateEvent × GateTask × Gate
  | .init =>
    match g.claimInit with
    | (.ok (), g) => (.claimInit (.ok ()), .publishInit, g)
    | (.error e, g) => (.claimInit (.error e), .idle, g)
  | .postInit =>
    match g.claimPostInit with
    | (.ok (), g) => (.claimPostInit (.ok ()), .publishPostInit, g)
    | (.error e, g) => (.claimPostInit (.error e), .idle, g)
  | .phase => (.loadPhase g.phase, .idle, g)
  | .report queued connected =>
    (.storeQueued queued, .storeConnected connected, g.storeQueued queued)
  | .status => (.loadQueued g.queued, .loadConnected g.queued, g)

/-- The last step of a call of two steps. -/
def GateTask.finish (g : Gate) : GateTask → Option (GateEvent × Gate)
  | .idle => none
  | .publishInit => some (.publishInit, g.publishInit)
  | .publishPostInit => some (.publishPostInit, g.publishPostInit)
  | .storeConnected connected => some (.storeConnected connected, g.storeConnected connected)
  | .loadConnected queued => some (.loadConnected ⟨g.enabled, queued, g.connected⟩, g)

/-- The stage that a caller has brought the gate to and is about to bring it on from. -/
def GateTask.claims? : GateTask → Option GateStage
  | .publishInit => some .initializing
  | .publishPostInit => some .postInitializing
  | .idle | .storeConnected _ | .loadConnected _ => none

/-- The stages on the way to a stage, itself included. -/
def GateStage.entered : GateStage → List GateStage
  | .created => []
  | .initializing => [.initializing]
  | .initialized => [.initializing, .initialized]
  | .postInitializing => [.initializing, .initialized, .postInitializing]
  | .postInitialized => [.initializing, .initialized, .postInitializing, .postInitialized]

/-- A phase may be claimed at a stage. -/
def GateStage.Open (stage : GateStage) : Prop := stage = .created ∨ stage = .initialized

/-- The step that brings the gate to a stage; where it begins, nothing does. -/
def GateStage.entry? : GateStage → Option GateEvent
  | .created => none
  | .initializing => some (.claimInit (.ok ()))
  | .initialized => some .publishInit
  | .postInitializing => some (.claimPostInit (.ok ()))
  | .postInitialized => some .publishPostInit

/-- A gate and its callers, each with the calls that it will make. -/
structure GateCallers (κ : Type) where
  /-- The gate. -/
  gate : Gate
  /-- The calls that each caller has yet to begin. -/
  todo : κ → List GateCall
  /-- What each caller has yet to do in the call that it is in. -/
  task : κ → GateTask := fun _ => .idle

namespace GateCallers

variable {κ : Type} [DecidableEq κ]

/-- The next step of a caller: it goes on with its call or begins another one. A caller that has
made all of its calls does nothing. -/
def step (s : GateCallers κ) (k : κ) : Option GateEvent × GateCallers κ :=
  match (s.task k).finish s.gate with
  | some (event, gate) => (some event, { s with gate, task := Function.update s.task k .idle })
  | none =>
    match s.todo k with
    | [] => (none, s)
    | call :: rest =>
      match call.begin s.gate with
      | (event, task, gate) =>
        (some event, ⟨gate, Function.update s.todo k rest, Function.update s.task k task⟩)

/-- The callers after the steps of a schedule. -/
def after (s : GateCallers κ) (schedule : List κ) : GateCallers κ :=
  schedule.foldl (fun s k => (s.step k).2) s

/-- What happens in the steps of a schedule, and who does it. -/
def history (s : GateCallers κ) : List κ → List (κ × GateEvent)
  | [] => []
  | k :: rest => (s.step k).1.toList.map (k, ·) ++ (s.step k).2.history rest

/-- What the calls answer that return during a schedule, and to whom. -/
def answers (s : GateCallers κ) (schedule : List κ) : List (κ × GateAnswer) :=
  (s.history schedule).filterMap fun e => e.2.answer?.map (e.1, ·)

/-! ## What a step does to the phases -/

/-- What a step of a caller may be, at a stage of the gate and with something to do: the event, the
stage it brings the gate to and what is left to do. -/
inductive GateMove (stage : GateStage) (task : GateTask) : GateEvent → GateStage → GateTask → Prop
  /-- The first phase is claimed. -/
  | claimInit (free : stage = .created) :
      GateMove stage task (.claimInit (.ok ())) .initializing .publishInit
  /-- The first phase is published by the caller that has claimed it. -/
  | publishInit (claimed : task = .publishInit) :
      GateMove stage task .publishInit .initialized .idle
  /-- The second phase is claimed. -/
  | claimPostInit (ready : stage = .initialized) :
      GateMove stage task (.claimPostInit (.ok ())) .postInitializing .publishPostInit
  /-- The second phase is published by the caller that has claimed it. -/
  | publishPostInit (claimed : task = .publishPostInit) :
      GateMove stage task .publishPostInit .postInitialized .idle
  /-- The first phase was claimed before. -/
  | refuseInit (taken : stage ≠ .created) :
      GateMove stage task (.claimInit (.error .alreadyInitialized)) stage .idle
  /-- The first phase is not yet published. -/
  | refuseEarly (early : stage = .created ∨ stage = .initializing) :
      GateMove stage task (.claimPostInit (.error .notInitialized)) stage .idle
  /-- The second phase was claimed before. -/
  | refuseLate (late : stage = .postInitializing ∨ stage = .postInitialized) :
      GateMove stage task (.claimPostInit (.error .alreadyPostInitialized)) stage .idle
  /-- The phase is reported. -/
  | loadPhase : GateMove stage task (.loadPhase stage.phase) stage .idle
  /-- The first count is stored, and the second one is to be. -/
  | storeQueued (queued connected : UInt64) :
      GateMove stage task (.storeQueued queued) stage (.storeConnected connected)
  /-- The second count is stored. -/
  | storeConnected (connected : UInt64) :
      GateMove stage task (.storeConnected connected) stage .idle
  /-- The first count is loaded, and the second one is to be. -/
  | loadQueued (queued : UInt64) :
      GateMove stage task (.loadQueued queued) stage (.loadConnected queued)
  /-- The second count is loaded. -/
  | loadConnected (view : JoinQueueStatus) :
      GateMove stage task (.loadConnected view) stage .idle

variable {s : GateCallers κ} {k : κ} {event : GateEvent}

theorem move_begin (g : Gate) (task : GateTask) (call : GateCall) :
    GateMove g.stage task (call.begin g).1 (call.begin g).2.2.stage (call.begin g).2.1 := by
  cases call with
  | init =>
    by_cases hfree : g.stage = .created
    · simp only [GateCall.begin, Gate.claimInit, if_pos hfree]
      exact .claimInit hfree
    · simp only [GateCall.begin, Gate.claimInit, if_neg hfree]
      exact .refuseInit hfree
  | postInit =>
    cases hstage : g.stage with
    | created =>
      simp only [GateCall.begin, Gate.claimPostInit, hstage]
      exact .refuseEarly (Or.inl rfl)
    | initializing =>
      simp only [GateCall.begin, Gate.claimPostInit, hstage]
      exact .refuseEarly (Or.inr rfl)
    | initialized =>
      simp only [GateCall.begin, Gate.claimPostInit, hstage]
      exact .claimPostInit rfl
    | postInitializing =>
      simp only [GateCall.begin, Gate.claimPostInit, hstage]
      exact .refuseLate (Or.inl rfl)
    | postInitialized =>
      simp only [GateCall.begin, Gate.claimPostInit, hstage]
      exact .refuseLate (Or.inr rfl)
  | phase => exact .loadPhase
  | report queued connected => exact .storeQueued queued connected
  | status => exact .loadQueued g.queued

theorem move_finish {g next : Gate} {task : GateTask} (h : task.finish g = some (event, next)) :
    GateMove g.stage task event next.stage .idle := by
  cases task with
  | idle => cases h
  | publishInit =>
    cases h
    exact .publishInit rfl
  | publishPostInit =>
    cases h
    exact .publishPostInit rfl
  | storeConnected connected =>
    cases h
    exact .storeConnected connected
  | loadConnected queued =>
    cases h
    exact .loadConnected _

/-- A step that does something ends a call or begins one. -/
theorem step_cases (h : (s.step k).1 = some event) :
    (∃ gate, (s.task k).finish s.gate = some (event, gate) ∧
      (s.step k).2 = ⟨gate, s.todo, Function.update s.task k .idle⟩) ∨
    s.task k = .idle ∧ ∃ call rest, s.todo k = call :: rest ∧ (call.begin s.gate).1 = event ∧
      (s.step k).2 = ⟨(call.begin s.gate).2.2, Function.update s.todo k rest,
        Function.update s.task k (call.begin s.gate).2.1⟩ := by
  rw [step] at h ⊢
  cases hfinish : (s.task k).finish s.gate with
  | some finished =>
    obtain ⟨done, gate⟩ := finished
    simp only [hfinish, Option.some.injEq] at h
    subst h
    exact Or.inl ⟨gate, rfl, rfl⟩
  | none =>
    have hidle : s.task k = .idle := by
      cases htask : s.task k with
      | idle => rfl
      | publishInit | publishPostInit | storeConnected | loadConnected =>
        rw [htask] at hfinish
        cases hfinish
    cases htodo : s.todo k with
    | nil => simp [hfinish, htodo] at h
    | cons call rest =>
      simp only [hfinish, htodo, Option.some.injEq] at h
      exact Or.inr ⟨hidle, call, rest, rfl, h, rfl⟩

/-- A caller that has nothing to do changes nothing. -/
theorem step_of_none (h : (s.step k).1 = none) : (s.step k).2 = s := by
  rw [step] at h ⊢
  cases hfinish : (s.task k).finish s.gate with
  | some finished => simp [hfinish] at h
  | none =>
    cases htodo : s.todo k with
    | nil => rfl
    | cons call rest => simp [hfinish, htodo] at h

/-- A step that does something is one of the moves, and leaves other callers to do what they had
to. -/
theorem move_step (h : (s.step k).1 = some event) :
    GateMove s.gate.stage (s.task k) event (s.step k).2.gate.stage ((s.step k).2.task k) ∧
      ∀ j, j ≠ k → (s.step k).2.task j = s.task j := by
  rcases step_cases h with ⟨gate, hfinish, hnext⟩ | ⟨-, call, rest, -, rfl, hnext⟩
  · rw [hnext]
    refine ⟨?_, fun j hj => Function.update_of_ne hj _ _⟩
    simp only [Function.update_self]
    exact move_finish hfinish
  · rw [hnext]
    refine ⟨?_, fun j hj => Function.update_of_ne hj _ _⟩
    simp only [Function.update_self]
    exact move_begin s.gate (s.task k) call

/-! ## What every schedule keeps -/

/-- What holds of the callers after everything that has happened so far. -/
structure Tracks (s : GateCallers κ) (log : List (κ × GateEvent)) : Prop where
  /-- The gate has entered the stages on the way to where it stands, each of them once. -/
  entered : log.filterMap (fun e => e.2.enters?) = s.gate.stage.entered
  /-- The gate waits where a caller has claimed a phase. -/
  claimed : ∀ k stage, (s.task k).claims? = some stage → s.gate.stage = stage
  /-- One caller has done so, if any. -/
  single : ∀ j k, (s.task j).claims? ≠ none → (s.task k).claims? ≠ none → j = k
  /-- No phase was reported that the gate has not reached. -/
  reached : ∀ phase ∈ log.filterMap (fun e => e.2.phase?), phase.rank ≤ s.gate.phase.rank
  /-- The phases that were reported never go backwards. -/
  ascending : (log.filterMap fun e => e.2.phase?).Pairwise fun p q => p.rank ≤ q.rank

section GateMove

variable {stage next : GateStage} {task later : GateTask}

/-- A caller that publishes a phase finds the gate where it has claimed the phase. -/
theorem GateMove.entered_eq (h : GateMove stage task event next later)
    (hclaimed : ∀ claim, task.claims? = some claim → stage = claim) :
    next.entered = stage.entered ++ event.enters?.toList := by
  cases h with
  | claimInit free =>
    rw [free]
    rfl
  | publishInit claimed =>
    rw [hclaimed .initializing (by rw [claimed]; rfl)]
    rfl
  | claimPostInit ready =>
    rw [ready]
    rfl
  | publishPostInit claimed =>
    rw [hclaimed .postInitializing (by rw [claimed]; rfl)]
    rfl
  | refuseInit | refuseEarly | refuseLate | loadPhase | storeQueued | storeConnected | loadQueued
  | loadConnected => exact (List.append_nil _).symm

/-- So the phase that the gate reports does not go backwards. -/
theorem GateMove.rank_le (h : GateMove stage task event next later)
    (hclaimed : ∀ claim, task.claims? = some claim → stage = claim) :
    stage.phase.rank ≤ next.phase.rank := by
  cases h with
  | claimInit free =>
    rw [free]
    exact Nat.le_refl _
  | publishInit claimed =>
    rw [hclaimed .initializing (by rw [claimed]; rfl)]
    exact Nat.zero_le _
  | claimPostInit ready =>
    rw [ready]
    exact Nat.le_refl _
  | publishPostInit claimed =>
    rw [hclaimed .postInitializing (by rw [claimed]; rfl)]
    exact Nat.le_succ _
  | refuseInit | refuseEarly | refuseLate | loadPhase | storeQueued | storeConnected | loadQueued
  | loadConnected => exact Nat.le_refl _

/-- Only the phase of the moment is reported. -/
theorem GateMove.phase_eq (h : GateMove stage task event next later) {phase : JoinQueuePhase}
    (hphase : event.phase? = some phase) : phase = stage.phase := by
  cases h with
  | loadPhase => exact (Option.some.inj hphase).symm
  | claimInit | publishInit | claimPostInit | publishPostInit | refuseInit | refuseEarly
  | refuseLate | storeQueued | storeConnected | loadQueued | loadConnected => cases hphase

/-- A caller that has claimed a phase has brought the gate there from where it was open. -/
theorem GateMove.claims (h : GateMove stage task event next later) {claim : GateStage}
    (hlater : later.claims? = some claim) :
    next = claim ∧ stage.Open := by
  cases h with
  | claimInit free => exact ⟨Option.some.inj hlater, Or.inl free⟩
  | claimPostInit ready => exact ⟨Option.some.inj hlater, Or.inr ready⟩
  | publishInit | publishPostInit | refuseInit | refuseEarly | refuseLate | loadPhase
  | storeQueued | storeConnected | loadQueued | loadConnected => cases hlater

/-- The gate moves on where it is open, or through a caller that has claimed a phase. -/
theorem GateMove.next_eq (h : GateMove stage task event next later) :
    next = stage ∨ task.claims? ≠ none ∨ stage.Open := by
  cases h with
  | claimInit free => exact Or.inr (Or.inr (Or.inl free))
  | claimPostInit ready => exact Or.inr (Or.inr (Or.inr ready))
  | publishInit claimed =>
    rw [claimed]
    exact Or.inr (Or.inl nofun)
  | publishPostInit claimed =>
    rw [claimed]
    exact Or.inr (Or.inl nofun)
  | refuseInit | refuseEarly | refuseLate | loadPhase | storeQueued | storeConnected | loadQueued
  | loadConnected => exact Or.inl rfl

end GateMove

/-- The gate is not open where a caller has claimed a phase. -/
theorem not_open_of_claims? {task : GateTask} {stage : GateStage}
    (h : task.claims? = some stage) : ¬ stage.Open := by
  cases task with
  | publishInit =>
    cases h
    rintro (h | h) <;> cases h
  | publishPostInit =>
    cases h
    rintro (h | h) <;> cases h
  | idle | storeConnected | loadConnected => cases h

section Tracks

variable {log : List (κ × GateEvent)}

omit [DecidableEq κ] in
/-- Where the gate is open, nobody has a phase to publish. -/
theorem Tracks.claims?_eq_none (h : Tracks s log) (hopen : s.gate.stage.Open) (j : κ) :
    (s.task j).claims? = none := by
  by_contra hclaims
  obtain ⟨stage, hstage⟩ := Option.ne_none_iff_exists'.1 hclaims
  rw [h.claimed j stage hstage] at hopen
  exact not_open_of_claims? hstage hopen

/-- The gate still waits where a caller has claimed a phase. -/
theorem Tracks.claimed_step (h : Tracks s log) (hevent : (s.step k).1 = some event) {j : κ}
    {stage : GateStage} (hj : ((s.step k).2.task j).claims? = some stage) :
    (s.step k).2.gate.stage = stage := by
  obtain ⟨hmove, hothers⟩ := move_step hevent
  by_cases hjk : j = k
  · subst hjk
    exact (hmove.claims hj).1
  · rw [hothers j hjk] at hj
    rcases hmove.next_eq with hnext | hself | hopen
    · rw [hnext]
      exact h.claimed j stage hj
    · -- `k` would not be the only one to have claimed a phase
      have hclaims : (s.task j).claims? ≠ none := by rw [hj]; exact Option.some_ne_none stage
      exact absurd (h.single j k hclaims hself) hjk
    · rw [h.claims?_eq_none hopen j] at hj
      cases hj

/-- Still one caller has claimed a phase, if any. -/
theorem Tracks.single_step (h : Tracks s log) (hevent : (s.step k).1 = some event) {i j : κ}
    (hi : ((s.step k).2.task i).claims? ≠ none) (hj : ((s.step k).2.task j).claims? ≠ none) :
    i = j := by
  obtain ⟨hmove, hothers⟩ := move_step hevent
  by_cases hk : ((s.step k).2.task k).claims? = none
  · have hik : i ≠ k := by
      rintro rfl
      exact hi hk
    have hjk : j ≠ k := by
      rintro rfl
      exact hj hk
    rw [hothers i hik] at hi
    rw [hothers j hjk] at hj
    exact h.single i j hi hj
  · -- the gate was open when `k` claimed the phase
    obtain ⟨stage, hstage⟩ := Option.ne_none_iff_exists'.1 hk
    have hnone := h.claims?_eq_none (hmove.claims hstage).2
    have hone : ∀ l, ((s.step k).2.task l).claims? ≠ none → l = k := by
      intro l hl
      by_contra hlk
      rw [hothers l hlk] at hl
      exact hl (hnone l)
    rw [hone i hi, hone j hj]

omit [DecidableEq κ] in
/-- One more event may add what it has to tell. -/
theorem filterMap_concat {β : Type} (tell : GateEvent → Option β) (log : List (κ × GateEvent))
    (k : κ) (event : GateEvent) :
    (log ++ [(k, event)]).filterMap (fun e => tell e.2) =
      log.filterMap (fun e => tell e.2) ++ (tell event).toList := by
  rw [List.filterMap_append]
  cases htell : tell event <;> simp [htell]

/-- Each step keeps track. -/
theorem Tracks.step (h : Tracks s log) (k : κ) :
    Tracks (s.step k).2 (log ++ (s.step k).1.toList.map (k, ·)) := by
  cases hevent : (s.step k).1 with
  | none =>
    rw [step_of_none hevent, Option.toList_none, List.map_nil, List.append_nil]
    exact h
  | some event =>
    obtain ⟨hmove, -⟩ := move_step hevent
    have hclaimed := h.claimed k
    have hphases := filterMap_concat GateEvent.phase? log k event
    refine ⟨?_, fun j stage => h.claimed_step hevent, fun i j => h.single_step hevent, ?_, ?_⟩
    · rw [hmove.entered_eq hclaimed, ← h.entered]
      exact filterMap_concat GateEvent.enters? log k event
    · show ∀ phase ∈ (log ++ [(k, event)]).filterMap (fun e => e.2.phase?), _
      rw [hphases]
      intro phase hphase
      refine Nat.le_trans ?_ (hmove.rank_le hclaimed)
      rcases List.mem_append.1 hphase with hold | hnew
      · exact h.reached phase hold
      · have hnow := hmove.phase_eq (Option.mem_toList.1 hnew)
        exact Nat.le_of_eq (congrArg JoinQueuePhase.rank hnow)
    · show ((log ++ [(k, event)]).filterMap fun e => e.2.phase?).Pairwise _
      rw [hphases, List.pairwise_append]
      refine ⟨h.ascending, ?_, fun p hp q hq => ?_⟩
      · cases event.phase? <;> simp
      · rw [hmove.phase_eq (Option.mem_toList.1 hq)]
        exact h.reached p hp

end Tracks

/-! ## Schedules -/

theorem after_append (s : GateCallers κ) (first rest : List κ) :
    s.after (first ++ rest) = (s.after first).after rest := by
  rw [after, after, after, List.foldl_append]

theorem history_append (s : GateCallers κ) (first rest : List κ) :
    s.history (first ++ rest) = s.history first ++ (s.after first).history rest := by
  induction first generalizing s with
  | nil => rfl
  | cons k first ih =>
    rw [List.cons_append, history, history, ih, List.append_assoc]
    rfl

theorem answers_append (s : GateCallers κ) (first rest : List κ) :
    s.answers (first ++ rest) = s.answers first ++ (s.after first).answers rest := by
  rw [answers, answers, answers, history_append, List.filterMap_append]

/-- Whatever the schedule, track is kept of it. -/
theorem Tracks.after {log : List (κ × GateEvent)} (h : Tracks s log) (schedule : List κ) :
    Tracks (s.after schedule) (log ++ s.history schedule) := by
  induction schedule generalizing s log with
  | nil =>
    rw [history, List.append_nil]
    exact h
  | cons k rest ih =>
    have hrest := ih (h.step k)
    rw [List.append_assoc] at hrest
    exact hrest

/-- What happens is the step of a caller after some part of the schedule. -/
theorem exists_of_history_eq {schedule : List κ} {before later : List (κ × GateEvent)}
    (h : s.history schedule = before ++ (k, event) :: later) :
    ∃ first rest, schedule = first ++ k :: rest ∧ s.history first = before ∧
      ((s.after first).step k).1 = some event := by
  induction schedule generalizing s before with
  | nil => simp [history] at h
  | cons j schedule ih =>
    rw [history] at h
    cases hevent : (s.step j).1 with
    | none =>
      rw [hevent] at h
      obtain ⟨first, rest, rfl, hbefore, hstep⟩ := ih h
      refine ⟨j :: first, rest, rfl, ?_, hstep⟩
      rw [history, hevent, hbefore]
      rfl
    | some done =>
      rw [hevent, Option.toList_some, List.map_singleton, List.singleton_append] at h
      cases before with
      | nil =>
        obtain ⟨hfirst, -⟩ := List.cons.inj h
        obtain ⟨rfl, rfl⟩ := Prod.mk.inj hfirst
        exact ⟨[], schedule, rfl, rfl, hevent⟩
      | cons first before =>
        obtain ⟨rfl, hrest⟩ := List.cons.inj h
        obtain ⟨first, rest, rfl, hbefore, hstep⟩ := ih hrest
        refine ⟨j :: first, rest, rfl, ?_, hstep⟩
        rw [history, hevent, hbefore]
        rfl

/-! ## What has happened at a stage -/

theorem entry?_of_enters? {stage : GateStage} (h : event.enters? = some stage) :
    stage.entry? = some event := by
  cases event with
  | claimInit result | claimPostInit result =>
    cases result with
    | ok done =>
      cases h
      rfl
    | error error => cases h
  | publishInit | publishPostInit =>
    cases h
    rfl
  | loadPhase | storeQueued | storeConnected | loadQueued | loadConnected => cases h

theorem enters?_of_init (h : event.answer? = some (.init (.ok ()))) :
    event.enters? = some .initialized := by
  cases event with
  | publishInit => rfl
  | claimInit result | claimPostInit result => cases result <;> cases h
  | publishPostInit | loadPhase | storeQueued | storeConnected | loadQueued | loadConnected =>
    cases h

theorem enters?_of_postInit (h : event.answer? = some (.postInit (.ok ()))) :
    event.enters? = some .postInitialized := by
  cases event with
  | publishPostInit => rfl
  | claimInit result | claimPostInit result => cases result <;> cases h
  | publishInit | loadPhase | storeQueued | storeConnected | loadQueued | loadConnected => cases h

theorem nodup_entered (stage : GateStage) : stage.entered.Nodup := by
  cases stage <;> decide

section Answers

omit [DecidableEq κ]

variable {log : List (κ × GateEvent)} {next : GateStage} {task : GateTask}

/-- The gate has entered a stage exactly if the step that enters it has been taken. -/
theorem Tracks.mem_entered_iff (h : Tracks s log) {stage : GateStage}
    (hevent : event.enters? = some stage) :
    stage ∈ s.gate.stage.entered ↔ ∃ j, (j, event) ∈ log := by
  rw [← h.entered, List.mem_filterMap]
  constructor
  · rintro ⟨⟨j, other⟩, hmem, hother⟩
    have hsame := (entry?_of_enters? hevent).symm.trans (entry?_of_enters? hother)
    rw [Option.some.inj hsame]
    exact ⟨j, hmem⟩
  · rintro ⟨j, hmem⟩
    exact ⟨(j, event), hmem, hevent⟩

/-- An answer that is given where the gate enters a stage is given once. -/
theorem Tracks.count_le_one (h : Tracks s log) {stage : GateStage}
    {answer : GateAnswer}
    (hanswer : ∀ event : GateEvent, event.answer? = some answer → event.enters? = some stage) :
    (log.countP fun e => e.2.answer? == some answer) ≤ 1 := by
  have hcount : (log.countP fun e => e.2.answer? == some answer) ≤
      log.countP fun e => e.2.enters? == some stage := by
    apply List.countP_mono_left
    intro e _ he
    exact beq_iff_eq.2 (hanswer e.2 (beq_iff_eq.1 he))
  refine Nat.le_trans hcount ?_
  rw [← List.count_filterMap, h.entered]
  exact List.nodup_iff_count_le_one.1 (nodup_entered _) stage

/-- The second phase has run only if the first one was published. -/
theorem Tracks.published_of_postInit (h : Tracks s log)
    (hmove : GateMove s.gate.stage (s.task k) event next task)
    (hanswer : event.answer? = some (.postInit (.ok ()))) : ∃ j, (j, .publishInit) ∈ log := by
  have hpublish : GateEvent.publishInit.enters? = some .initialized := rfl
  rw [← h.mem_entered_iff hpublish]
  cases hmove with
  | publishPostInit claimed =>
    have hstage := h.claimed k .postInitializing (by rw [claimed]; rfl)
    rw [hstage]
    decide
  | claimInit | publishInit | claimPostInit | refuseInit | refuseEarly | refuseLate | loadPhase
  | storeQueued | storeConnected | loadQueued | loadConnected => cases hanswer

/-- It is too early for the second phase only if the first one was not published. -/
theorem Tracks.not_published_of_notInitialized (h : Tracks s log)
    (hmove : GateMove s.gate.stage (s.task k) event next task)
    (hanswer : event.answer? = some (.postInit (.error .notInitialized))) (j : κ) :
    (j, .publishInit) ∉ log := by
  intro hmem
  have hpublish : GateEvent.publishInit.enters? = some .initialized := rfl
  have hentered := (h.mem_entered_iff hpublish).2 ⟨j, hmem⟩
  cases hmove with
  | refuseEarly early =>
    rcases early with hstage | hstage <;> rw [hstage] at hentered <;> revert hentered <;> decide
  | claimInit | publishInit | claimPostInit | publishPostInit | refuseInit | refuseLate | loadPhase
  | storeQueued | storeConnected | loadQueued | loadConnected => cases hanswer

/-- It is too late for the second phase only if it was claimed. -/
theorem Tracks.claimed_of_alreadyPostInitialized (h : Tracks s log)
    (hmove : GateMove s.gate.stage (s.task k) event next task)
    (hanswer : event.answer? = some (.postInit (.error .alreadyPostInitialized))) :
    ∃ j, (j, .claimPostInit (.ok ())) ∈ log := by
  have hclaim : (GateEvent.claimPostInit (.ok ())).enters? = some .postInitializing := rfl
  rw [← h.mem_entered_iff hclaim]
  cases hmove with
  | refuseLate late => rcases late with hstage | hstage <;> rw [hstage] <;> decide
  | claimInit | publishInit | claimPostInit | publishPostInit | refuseInit | refuseEarly
  | loadPhase | storeQueued | storeConnected | loadQueued | loadConnected => cases hanswer

/-- It is too late for the first phase only if it was claimed. -/
theorem Tracks.claimed_of_alreadyInitialized (h : Tracks s log)
    (hmove : GateMove s.gate.stage (s.task k) event next task)
    (hanswer : event.answer? = some (.init (.error .alreadyInitialized))) :
    ∃ j, (j, .claimInit (.ok ())) ∈ log := by
  have hclaim : (GateEvent.claimInit (.ok ())).enters? = some .initializing := rfl
  rw [← h.mem_entered_iff hclaim]
  cases hmove with
  | refuseInit taken =>
    cases hstage : s.gate.stage with
    | created => exact absurd hstage taken
    | initializing | initialized | postInitializing | postInitialized => decide
  | claimInit | publishInit | claimPostInit | publishPostInit | refuseEarly | refuseLate
  | loadPhase | storeQueued | storeConnected | loadQueued | loadConnected => cases hanswer

end Answers

theorem countP_answers (s : GateCallers κ) (schedule : List κ) (answer : GateAnswer) :
    ((s.answers schedule).countP fun a => a.2 = answer) =
      (s.history schedule).countP fun e => e.2.answer? == some answer := by
  rw [answers, List.countP_filterMap]
  apply List.countP_congr
  intro e _
  cases e.2.answer? <;> simp

/-- What held before an event, and the move that it was. -/
theorem exists_move_of_history_eq (h : Tracks s []) {schedule : List κ}
    {before later : List (κ × GateEvent)}
    (hhistory : s.history schedule = before ++ (k, event) :: later) :
    ∃ t next task, Tracks t before ∧ GateMove t.gate.stage (t.task k) event next task := by
  obtain ⟨first, rest, -, hbefore, hstep⟩ := exists_of_history_eq hhistory
  have htracks := h.after first
  rw [hbefore, List.nil_append] at htracks
  exact ⟨s.after first, _, _, htracks, (move_step hstep).1⟩

theorem begin_of_failure {g : Gate} {call : GateCall} {answer : GateAnswer}
    {error : JoinQueueError} (hanswer : (call.begin g).1.answer? = some answer)
    (herror : answer.failure? = some error) : (call.begin g).2 = (.idle, g) := by
  cases call with
  | init =>
    by_cases hfree : g.stage = .created
    · simp only [GateCall.begin, Gate.claimInit, if_pos hfree, GateEvent.answer?] at hanswer
      cases hanswer
    · simp only [GateCall.begin, Gate.claimInit, if_neg hfree]
  | postInit =>
    cases hstage : g.stage with
    | initialized =>
      simp only [GateCall.begin, Gate.claimPostInit, hstage, GateEvent.answer?] at hanswer
      cases hanswer
    | created | initializing | postInitializing | postInitialized =>
      simp only [GateCall.begin, Gate.claimPostInit, hstage]
  | phase =>
    obtain rfl := Option.some.inj hanswer
    cases herror
  | report queued connected => cases hanswer
  | status => cases hanswer

theorem finish_of_failure {g next : Gate} {task : GateTask} {answer : GateAnswer}
    {error : JoinQueueError} (h : task.finish g = some (event, next))
    (hanswer : event.answer? = some answer) : answer.failure? ≠ some error := by
  cases task with
  | idle => cases h
  | publishInit | publishPostInit | storeConnected connected | loadConnected queued =>
    cases h
    obtain rfl := Option.some.inj hanswer
    exact nofun

/-- A call that fails does so in its only step, and leaves the gate as it was. -/
theorem gate_of_failure {answer : GateAnswer} {error : JoinQueueError}
    (h : (s.step k).1 = some event) (hanswer : event.answer? = some answer)
    (herror : answer.failure? = some error) :
    s.task k = .idle ∧ (s.step k).2.task k = .idle ∧ (s.step k).2.gate = s.gate := by
  rcases step_cases h with ⟨gate, hfinish, -⟩ | ⟨hidle, call, rest, -, rfl, hnext⟩
  · exact absurd herror (finish_of_failure hfinish hanswer)
  · have hbegin := begin_of_failure hanswer herror
    rw [hnext, hbegin]
    exact ⟨hidle, Function.update_self .., rfl⟩

end GateCallers

/-! ## Calls one after the other -/

namespace Gate

/-- A whole call, with what it answers and the gate that it leaves. -/
def call (g : Gate) : GateCall → GateAnswer × Gate
  | .init => (.init g.runInit.1, g.runInit.2)
  | .postInit => (.postInit g.runPostInit.1, g.runPostInit.2)
  | .phase => (.phase g.phase, g)
  | .report queued connected => (.report, g.reportCounts queued connected)
  | .status => (.status g.status, g)

variable {κ : Type}

/-- The gate after whole calls. -/
def afterCalls (g : Gate) (calls : List (κ × GateCall)) : Gate :=
  calls.foldl (fun g c => (g.call c.2).2) g

/-- What whole calls answer, and to whom. -/
def answersTo (g : Gate) : List (κ × GateCall) → List (κ × GateAnswer)
  | [] => []
  | c :: rest => (c.1, (g.call c.2).1) :: (g.call c.2).2.answersTo rest

/-- Nobody has claimed a phase that it has yet to publish. -/
def AtRest (g : Gate) : Prop :=
  g.stage ≠ .initializing ∧ g.stage ≠ .postInitializing

/-- A whole call publishes what it claims. -/
theorem AtRest.call {g : Gate} (h : g.AtRest) (call : GateCall) : (g.call call).2.AtRest := by
  cases call with
  | init =>
    by_cases hfree : g.stage = .created
    · simp only [Gate.call, runInit, claimInit, if_pos hfree]
      exact ⟨nofun, nofun⟩
    · simp only [Gate.call, runInit, claimInit, if_neg hfree]
      exact h
  | postInit =>
    rw [Gate.call, runPostInit, claimPostInit]
    cases hstage : g.stage with
    | initialized => exact ⟨nofun, nofun⟩
    | created | initializing | postInitializing | postInitialized => exact h
  | phase => exact h
  | report queued connected => exact h
  | status => exact h

theorem AtRest.afterCalls {g : Gate} (h : g.AtRest) (calls : List (κ × GateCall)) :
    (g.afterCalls calls).AtRest := by
  induction calls generalizing g with
  | nil => exact h
  | cons c rest ih => exact ih (h.call c.2)

/-- A call takes one step, or two with nothing in between. -/
theorem call_eq (g : Gate) (call : GateCall) :
    (∃ event, call.begin g = (event, .idle, (g.call call).2) ∧
      event.answer? = some (g.call call).1) ∨
    ∃ event task middle done, call.begin g = (event, task, middle) ∧ event.answer? = none ∧
      task.finish middle = some (done, (g.call call).2) ∧ done.answer? = some (g.call call).1 := by
  cases call with
  | init =>
    by_cases hfree : g.stage = .created
    · right
      simp only [GateCall.begin, Gate.call, runInit, claimInit, if_pos hfree]
      exact ⟨_, _, _, _, rfl, rfl, rfl, rfl⟩
    · left
      simp only [GateCall.begin, Gate.call, runInit, claimInit, if_neg hfree]
      exact ⟨_, rfl, rfl⟩
  | postInit =>
    cases hstage : g.stage with
    | initialized =>
      right
      simp only [GateCall.begin, Gate.call, runPostInit, claimPostInit, hstage]
      exact ⟨_, _, _, _, rfl, rfl, rfl, rfl⟩
    | created | initializing | postInitializing | postInitialized =>
      left
      simp only [GateCall.begin, Gate.call, runPostInit, claimPostInit, hstage]
      exact ⟨_, rfl, rfl⟩
  | phase => exact Or.inl ⟨_, rfl, rfl⟩
  | report queued connected => exact Or.inr ⟨_, _, _, _, rfl, rfl, rfl, rfl⟩
  | status => exact Or.inr ⟨_, _, _, _, rfl, rfl, rfl, rfl⟩

end Gate

namespace GateCallers

variable {κ : Type} [DecidableEq κ] {s : GateCallers κ} {k : κ}

/-- The calls of one caller, in order. -/
def callsOf (calls : List (κ × GateCall)) (k : κ) : List GateCall :=
  (calls.filter fun c => c.1 = k).map fun c => c.2

/-- A caller that is in no call makes its next one without another caller coming in between. -/
theorem exists_schedule_call {call : GateCall} {rest : List GateCall} (hidle : s.task k = .idle)
    (htodo : s.todo k = call :: rest) :
    ∃ schedule, s.answers schedule = [(k, (s.gate.call call).1)] ∧
      s.after schedule = ⟨(s.gate.call call).2, Function.update s.todo k rest, s.task⟩ := by
  have hnone : (s.task k).finish s.gate = none := by
    rw [hidle]
    rfl
  have hfirst : s.step k = (some (call.begin s.gate).1, ⟨(call.begin s.gate).2.2,
      Function.update s.todo k rest, Function.update s.task k (call.begin s.gate).2.1⟩) := by
    rw [step, hnone]
    simp only [htodo]
  have hsame : Function.update s.task k .idle = s.task := by
    rw [← hidle, Function.update_eq_self]
  rcases s.gate.call_eq call with ⟨event, hbegin, hanswer⟩ |
    ⟨event, task, middle, done, hbegin, hsilent, hfinish, hanswer⟩
  · refine ⟨[k], ?_, ?_⟩
    · simp [answers, history, hfirst, hbegin, hanswer]
    · simp [after, hfirst, hbegin, hsame]
  · have hsecond : (s.step k).2.step k =
        (some done, ⟨(s.gate.call call).2, Function.update s.todo k rest, s.task⟩) := by
      rw [hfirst, hbegin, step]
      simp only [Function.update_self, hfinish, Function.update_idem, hsame]
    refine ⟨[k, k], ?_, ?_⟩
    · simp [answers, history, hsecond, hanswer]
      simp [hfirst, hbegin, hsilent]
    · simp [after, hsecond]

/-- Calls that are made one after the other are made so under some schedule. -/
theorem exists_schedule (calls : List (κ × GateCall)) (hidle : ∀ k, s.task k = .idle)
    (htodo : s.todo = callsOf calls) :
    ∃ schedule, s.answers schedule = s.gate.answersTo calls ∧
      (s.after schedule).gate = s.gate.afterCalls calls := by
  induction calls generalizing s with
  | nil => exact ⟨[], rfl, rfl⟩
  | cons c rest ih =>
    obtain ⟨k, call⟩ := c
    have hk : s.todo k = call :: callsOf rest k := by
      rw [htodo]
      simp [callsOf]
    obtain ⟨first, hfirst, hafter⟩ := exists_schedule_call (hidle k) hk
    have hrest : (s.after first).todo = callsOf rest := by
      funext j
      rw [hafter]
      by_cases hj : j = k
      · subst hj
        exact Function.update_self ..
      · have htail : s.todo j = callsOf rest j := by
          rw [htodo]
          simp [callsOf, Ne.symm hj]
        rw [← htail]
        exact Function.update_of_ne hj _ _
    have hstill : ∀ j, (s.after first).task j = .idle := by
      intro j
      rw [hafter]
      exact hidle j
    obtain ⟨later, hlater, hgate⟩ := ih hstill hrest
    have hleft : (s.after first).gate = (s.gate.call call).2 := by rw [hafter]
    rw [hleft] at hlater hgate
    refine ⟨first ++ later, ?_, ?_⟩
    · rw [answers_append, hfirst, hlater]
      rfl
    · rw [after_append, hgate]
      rfl

/-! ## Every schedule -/

/-- A new gate and its callers, none of which has begun a call. -/
def start (enabled : Bool) (todo : κ → List GateCall) : GateCallers κ where
  gate := { enabled }
  todo := todo

omit [DecidableEq κ] in
theorem tracks_start (enabled : Bool) (todo : κ → List GateCall) :
    Tracks (start enabled todo) [] where
  entered := rfl
  claimed := nofun
  single := fun _ _ h => absurd rfl h
  reached := nofun
  ascending := .nil

/-- Whatever calls any callers make on a new gate, and however their steps fall between each other:
each phase has run for one call at most, the second one for a call that came after the first one was
published. A call that is too early came before that, and one that is too late came after somebody
else had claimed the phase. The phases that are reported never go backwards, and a call that fails
leaves the gate as it was. Calls that are made one after the other are such a schedule, and between
them no phase is claimed and not published. -/
theorem phases_of_every_schedule (enabled : Bool) (todo : κ → List GateCall) (schedule : List κ) :
    let s := start enabled todo
    let h := s.history schedule
    let t := s.after schedule
    ((s.answers schedule).countP fun a => a.2 = .init (.ok ())) ≤ 1 ∧
      ((s.answers schedule).countP fun a => a.2 = .postInit (.ok ())) ≤ 1 ∧
      (∀ before k event later, h = before ++ (k, event) :: later →
        (event.answer? = some (.postInit (.ok ())) → ∃ j, (j, .publishInit) ∈ before) ∧
        (event.answer? = some (.postInit (.error .notInitialized)) →
          ∀ j, (j, .publishInit) ∉ before) ∧
        (event.answer? = some (.postInit (.error .alreadyPostInitialized)) →
          ∃ j, (j, .claimPostInit (.ok ())) ∈ before) ∧
        (event.answer? = some (.init (.error .alreadyInitialized)) →
          ∃ j, (j, .claimInit (.ok ())) ∈ before)) ∧
      ((h.filterMap fun e => e.2.phase?).Pairwise fun p q => p.rank ≤ q.rank) ∧
      (∀ k event answer error, (t.step k).1 = some event → event.answer? = some answer →
        answer.failure? = some error →
        t.task k = .idle ∧ (t.step k).2.task k = .idle ∧ (t.step k).2.gate = t.gate) ∧
      ∀ calls : List (κ × GateCall),
        (∃ whole, (start enabled (callsOf calls)).answers whole = s.gate.answersTo calls ∧
          ((start enabled (callsOf calls)).after whole).gate = s.gate.afterCalls calls) ∧
        (s.gate.afterCalls calls).AtRest := by
  intro s h t
  have hstart : Tracks s [] := tracks_start enabled todo
  have htracks : Tracks t h := hstart.after schedule
  refine ⟨?_, ?_, ?_, htracks.ascending, fun k event answer error => gate_of_failure,
    fun calls => ⟨exists_schedule calls (fun _ => rfl) rfl, ?_⟩⟩
  · rw [countP_answers]
    exact htracks.count_le_one fun event => enters?_of_init
  · rw [countP_answers]
    exact htracks.count_le_one fun event => enters?_of_postInit
  · intro before k event later hhistory
    obtain ⟨u, next, task, hu, hmove⟩ := exists_move_of_history_eq hstart hhistory
    exact ⟨hu.published_of_postInit hmove, hu.not_published_of_notInitialized hmove,
      hu.claimed_of_alreadyPostInitialized hmove, hu.claimed_of_alreadyInitialized hmove⟩
  · have hrest : s.gate.AtRest := ⟨nofun, nofun⟩
    exact hrest.afterCalls calls

/-- While one caller is between its two steps, another one comes too late for the first phase and
too early for the second one. -/
example :
    (start true fun first : Bool =>
        if first then [.init, .postInit] else [.init, .phase, .postInit]).answers
      [true, false, false, false, true, true, true] =
    [(false, .init (.error .alreadyInitialized)), (false, .phase .created),
      (false, .postInit (.error .notInitialized)), (true, .init (.ok ())),
      (true, .postInit (.ok ()))] := by
  decide

end GateCallers

end Station
