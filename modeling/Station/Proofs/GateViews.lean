import Mathlib.Data.List.Induction
import Station.Proofs.GateCallers

/-!
# Views of the join-queue gate

A report stores its two counts one after the other, and a view loads them one after the other. Under
every schedule each count of a view is the one that was stored last when it was loaded
(`Counts.step`, and from it `Counts.after`), but the two are loaded at two moments. They come from
one report if the last stores before these moments do (`OneReport`). Where these do not, a view may
show counts that no report has published and that the gate has never held together. Views are right
where reports are made one after the other and no store falls between the two loads.
-/

namespace Station

namespace GateEvent

/-- The first count that a step stores, if it stores one. -/
def queued? : GateEvent → Option UInt64
  | .storeQueued queued => some queued
  | .claimInit _ | .publishInit | .claimPostInit _ | .publishPostInit | .loadPhase _
  | .storeConnected _ | .loadQueued _ | .loadConnected _ => none

/-- The second count that a step stores, if it stores one. -/
def connected? : GateEvent → Option UInt64
  | .storeConnected connected => some connected
  | .claimInit _ | .publishInit | .claimPostInit _ | .publishPostInit | .loadPhase _
  | .storeQueued _ | .loadQueued _ | .loadConnected _ => none

/-- Whether a step stores a count. -/
def isStore (event : GateEvent) : Bool := event.queued?.isSome || event.connected?.isSome

end GateEvent

namespace GateCallers

variable {κ : Type}

/-! ## What a history says about the counts -/

/-- The counts of one kind that have been stored, in order. -/
def told (tell : GateEvent → Option UInt64) (log : List (κ × GateEvent)) : List UInt64 :=
  log.filterMap fun e => tell e.2

/-- The count of a kind that was stored last; before that it is zero. -/
def latest (tell : GateEvent → Option UInt64) (log : List (κ × GateEvent)) : UInt64 :=
  (told tell log).getLast?.getD 0

/-- The stores of both counts, in order. -/
def stores (log : List (κ × GateEvent)) : List (κ × GateEvent) := log.filter fun e => e.2.isStore

/-- The stores of a report, by whom it is made and with which counts. -/
def stored (report : κ × UInt64 × UInt64) : List (κ × GateEvent) :=
  [(report.1, .storeQueued report.2.1), (report.1, .storeConnected report.2.2)]

/-- The second count that a caller stores in its next step, if that is what the step does. -/
def second? [DecidableEq κ] (k : κ) (log : List (κ × GateEvent)) : Option UInt64 :=
  (log.find? fun e => e.1 = k).bind fun e => e.2.connected?

/-- The counts of the reports that have been made, in the order in which they were begun. A report
is made once the step of its caller that follows the store of the first count has stored the second
one. -/
def reports [DecidableEq κ] : List (κ × GateEvent) → List (UInt64 × UInt64)
  | [] => []
  | (k, event) :: rest =>
    (event.queued?.bind fun queued => (second? k rest).map fun connected =>
      (queued, connected)).toList ++ reports rest

/-- A view shows the counts of a report that has been made, or nothing before there is one. -/
def AsReported [DecidableEq κ] (log : List (κ × GateEvent)) (view : JoinQueueStatus) : Prop :=
  (view.queued, view.connected) ∈ reports log ∨
    view.queued = 0 ∧ view.connected = 0 ∧ ∀ e ∈ log, e.2.connected? = none

instance [DecidableEq κ] (log : List (κ × GateEvent)) (view : JoinQueueStatus) :
    Decidable (AsReported log view) :=
  inferInstanceAs (Decidable (_ ∨ _ ∧ _ ∧ _))

/-- The first count that was stored last in one part of a history and the second count that was
stored last in another part are those of one report, or neither has been stored. -/
inductive OneReport (first before : List (κ × GateEvent)) : Prop
  /-- Neither has been stored. -/
  | unreported (noQueued : ∀ e ∈ first, e.2.queued? = none)
      (noConnected : ∀ e ∈ before, e.2.connected? = none)
  /-- Both have been stored by one caller without another step of it in between. -/
  | reported (k : κ) (queued connected : UInt64) (earlier middle since later : List (κ × GateEvent))
      (first_eq : first = earlier ++ (k, .storeQueued queued) :: since)
      (lastQueued : ∀ e ∈ since, e.2.queued? = none)
      (before_eq : before =
        (earlier ++ (k, .storeQueued queued) :: middle) ++ (k, .storeConnected connected) :: later)
      (alone : ∀ e ∈ middle, e.1 ≠ k) (lastConnected : ∀ e ∈ later, e.2.connected? = none)

/-- Each count tells which report it is from: none is reported twice, and none is zero. -/
def TellApart (log : List (κ × GateEvent)) : Prop :=
  ∀ tell ∈ [GateEvent.queued?, GateEvent.connected?],
    (told tell log).Nodup ∧ 0 ∉ told tell log

instance (log : List (κ × GateEvent)) : Decidable (TellApart log) :=
  inferInstanceAs (Decidable (∀ tell ∈ [_, _], _ ∧ _))

/-- A caller takes a view: it loads the first count after a part of a history, and completes the
view after another part that has no other step of it. -/
structure TakesView (history first : List (κ × GateEvent)) (k : κ)
    (between : List (κ × GateEvent)) (view : JoinQueueStatus) : Prop where
  /-- The two loads. -/
  loads : ∃ later, history =
    (first ++ (k, .loadQueued view.queued) :: between) ++ (k, .loadConnected view) :: later
  /-- They are steps of one call. -/
  alone : ∀ e ∈ between, e.1 ≠ k

/-! ## Stored counts -/

section Latest

variable {tell : GateEvent → Option UInt64} {log : List (κ × GateEvent)}

theorem told_append (first rest : List (κ × GateEvent)) :
    told tell (first ++ rest) = told tell first ++ told tell rest :=
  List.filterMap_append

theorem told_cons_of_eq_some {k : κ} {event : GateEvent} {count : UInt64}
    (h : tell event = some count) (log : List (κ × GateEvent)) :
    told tell ((k, event) :: log) = count :: told tell log :=
  List.filterMap_cons_some h

theorem told_eq_nil_iff : told tell log = [] ↔ ∀ e ∈ log, tell e.2 = none :=
  List.filterMap_eq_nil_iff

theorem latest_concat (k : κ) (event : GateEvent) :
    latest tell (log ++ [(k, event)]) = (tell event).getD (latest tell log) := by
  rw [latest, told, filterMap_concat, List.getLast?_append]
  cases tell event <;> rfl

theorem latest_of_forall (h : ∀ e ∈ log, tell e.2 = none) : latest tell log = 0 := by
  rw [latest, told_eq_nil_iff.2 h]
  rfl

/-- A store decides the count until the next one of its kind. -/
theorem latest_of_split {k : κ} {event : GateEvent} {count : UInt64}
    (htell : tell event = some count) (earlier : List (κ × GateEvent))
    {since : List (κ × GateEvent)} (hsince : ∀ e ∈ since, tell e.2 = none) :
    latest tell (earlier ++ (k, event) :: since) = count := by
  rw [latest, told_append, told_cons_of_eq_some htell, told_eq_nil_iff.2 hsince,
    List.getLast?_concat]
  rfl

/-- Either nothing was stored, or something was stored last. -/
theorem forall_or_exists_split (tell : GateEvent → Option UInt64) (log : List (κ × GateEvent)) :
    (∀ e ∈ log, tell e.2 = none) ∨
      ∃ earlier k event since, log = earlier ++ (k, event) :: since ∧
        tell event = some (latest tell log) ∧ ∀ e ∈ since, tell e.2 = none := by
  induction log using List.reverseRecOn with
  | nil => exact Or.inl nofun
  | append_singleton log e ih =>
    obtain ⟨k, event⟩ := e
    rw [latest_concat]
    cases htell : tell event with
    | some count => exact Or.inr ⟨log, k, event, [], rfl, htell, nofun⟩
    | none =>
      rcases ih with hnone | ⟨earlier, j, last, since, rfl, hlast, hsince⟩
      · left
        intro e he
        rcases List.mem_append.1 he with he | he
        · exact hnone e he
        · rw [List.mem_singleton.1 he]
          exact htell
      · refine Or.inr ⟨earlier, j, last, since ++ [(k, event)], by simp, hlast, fun e he => ?_⟩
        rcases List.mem_append.1 he with he | he
        · exact hsince e he
        · rw [List.mem_singleton.1 he]
          exact htell

/-- Counts of which none is stored twice tell where they are stored. -/
theorem split_eq_of_nodup (hnodup : (told tell log).Nodup) {x y : κ × GateEvent} {count : UInt64}
    (hx : tell x.2 = some count) (hy : tell y.2 = some count) {a b c d : List (κ × GateEvent)}
    (hab : log = a ++ x :: b) (hcd : log = c ++ y :: d) : a = c ∧ x = y ∧ b = d := by
  -- were one of the two stores the earlier one, their count would be stored twice
  have hlater : ∀ {x y : κ × GateEvent} {a e d : List (κ × GateEvent)}, tell x.2 = some count →
      tell y.2 = some count → log ≠ a ++ x :: (e ++ y :: d) := by
    rintro ⟨j, x⟩ ⟨k, y⟩ a e d hx hy rfl
    rw [told_append, told_cons_of_eq_some hx, told_append, told_cons_of_eq_some hy] at hnodup
    exact (List.nodup_cons.1 hnodup.of_append_right).1 (by simp)
  rcases List.append_eq_append_iff.1 (hab.symm.trans hcd) with ⟨e, rfl, h⟩ | ⟨e, rfl, h⟩
  · cases e with
    | nil =>
      obtain ⟨rfl, rfl⟩ := List.cons.inj h
      exact ⟨(List.append_nil a).symm, rfl, rfl⟩
    | cons z e =>
      obtain ⟨rfl, rfl⟩ := List.cons.inj h
      exact absurd hab (hlater hx hy)
  · cases e with
    | nil =>
      obtain ⟨rfl, rfl⟩ := List.cons.inj h
      exact ⟨List.append_nil c, rfl, rfl⟩
    | cons z e =>
      obtain ⟨rfl, rfl⟩ := List.cons.inj h
      exact absurd hcd (hlater hy hx)

theorem told_stores (htell : ∀ event count, tell event = some count → event.isStore = true) :
    told tell (stores log) = told tell log := by
  rw [told, stores, List.filterMap_filter]
  refine List.filterMap_congr fun e _ => ?_
  cases he : tell e.2 with
  | none => simp
  | some count => simp [htell e.2 count he]

theorem latest_stores (htell : ∀ event count, tell event = some count → event.isStore = true) :
    latest tell (stores log) = latest tell log := by
  rw [latest, told_stores htell, latest]

end Latest

theorem isStore_of_queued? {event : GateEvent} {count : UInt64}
    (h : event.queued? = some count) : event.isStore = true := by
  simp [GateEvent.isStore, h]

theorem isStore_of_connected? {event : GateEvent} {count : UInt64}
    (h : event.connected? = some count) : event.isStore = true := by
  simp [GateEvent.isStore, h]

theorem eq_storeQueued_of_queued? {event : GateEvent} {count : UInt64}
    (h : event.queued? = some count) : event = .storeQueued count := by
  cases event <;> cases h
  rfl

theorem eq_storeConnected_of_connected? {event : GateEvent} {count : UInt64}
    (h : event.connected? = some count) : event = .storeConnected count := by
  cases event <;> cases h
  rfl

/-- After whole reports the gate holds the counts of the last one. -/
theorem latest_flatMap_stored (made : List (κ × UInt64 × UInt64)) :
    (latest GateEvent.queued? (made.flatMap stored),
        latest GateEvent.connected? (made.flatMap stored)) =
      (made.getLast?.map Prod.snd).getD (0, 0) := by
  rcases List.eq_nil_or_concat' made with rfl | ⟨earlier, ⟨k, queued, connected⟩, rfl⟩
  · rfl
  · have hsplit : (earlier ++ [(k, queued, connected)]).flatMap stored =
        earlier.flatMap stored ++ [(k, .storeQueued queued)] ++
          [(k, .storeConnected connected)] := by
      simp [stored]
    rw [hsplit, latest_concat, latest_concat, latest_concat, List.getLast?_concat]
    rfl

section DecidableEq

variable [DecidableEq κ]

theorem second?_eq_some_iff {k : κ} {log : List (κ × GateEvent)} {connected : UInt64} :
    second? k log = some connected ↔ ∃ middle later,
      log = middle ++ (k, .storeConnected connected) :: later ∧ ∀ e ∈ middle, e.1 ≠ k := by
  simp only [second?, Option.bind_eq_some_iff, List.find?_eq_some_iff_append]
  constructor
  · rintro ⟨⟨j, event⟩, ⟨hj, middle, later, rfl, halone⟩, hevent⟩
    obtain rfl : j = k := by simpa using hj
    obtain rfl := eq_storeConnected_of_connected? hevent
    exact ⟨middle, later, rfl, fun e he => by simpa using halone e he⟩
  · rintro ⟨middle, later, rfl, halone⟩
    exact ⟨(k, .storeConnected connected),
      ⟨by simp, middle, later, rfl, fun e he => by simpa using halone e he⟩, rfl⟩

/-- The counts of a report were stored by one caller without another step of it in between. -/
theorem mem_reports_iff {log : List (κ × GateEvent)} {queued connected : UInt64} :
    (queued, connected) ∈ reports log ↔ ∃ k earlier middle later, log =
      (earlier ++ (k, .storeQueued queued) :: middle) ++ (k, .storeConnected connected) :: later ∧
        ∀ e ∈ middle, e.1 ≠ k := by
  induction log with
  | nil => simp [reports]
  | cons e rest ih =>
    obtain ⟨j, event⟩ := e
    simp only [reports, List.mem_append, ih, Option.mem_toList,
      Option.bind_eq_some_iff, Option.map_eq_some_iff, Prod.mk.injEq]
    constructor
    · rintro (⟨count, hcount, second, hsecond, rfl, rfl⟩ | ⟨k, earlier, middle, later, rfl, halone⟩)
      · obtain ⟨middle, later, rfl, halone⟩ := second?_eq_some_iff.1 hsecond
        rw [eq_storeQueued_of_queued? hcount]
        exact ⟨j, [], middle, later, rfl, halone⟩
      · exact ⟨k, (j, event) :: earlier, middle, later, rfl, halone⟩
    · rintro ⟨k, earlier, middle, later, hlog, halone⟩
      cases earlier with
      | nil =>
        obtain ⟨hhead, rfl⟩ := List.cons.inj hlog
        obtain ⟨rfl, rfl⟩ := Prod.mk.inj hhead
        exact Or.inl ⟨queued, rfl, connected,
          second?_eq_some_iff.2 ⟨middle, later, rfl, halone⟩, rfl, rfl⟩
      | cons first earlier =>
        obtain ⟨-, rfl⟩ := List.cons.inj hlog
        exact Or.inr ⟨k, earlier, middle, later, rfl, halone⟩

/-! ## What every schedule keeps -/

/-- The last step of a caller. -/
def lastStep (log : List (κ × GateEvent)) (k : κ) : Option GateEvent :=
  (log.reverse.find? fun e => e.1 = k).map Prod.snd

/-- What holds of the counts after everything that has happened so far. -/
structure Counts (enabled : Bool) (s : GateCallers κ) (log : List (κ × GateEvent)) : Prop where
  /-- The gate is as it was made. -/
  enabled_eq : s.gate.enabled = enabled
  /-- The first count is the one that was stored last. -/
  queued_eq : s.gate.queued = latest GateEvent.queued? log
  /-- So is the second count. -/
  connected_eq : s.gate.connected = latest GateEvent.connected? log
  /-- A caller that has loaded the first count, and not the second one, has done nothing since. -/
  loading : ∀ k queued, s.task k = .loadConnected queued →
    lastStep log k = some (.loadQueued queued)

variable {s : GateCallers κ} {k : κ} {event : GateEvent} {log : List (κ × GateEvent)}
  {enabled : Bool}

theorem lastStep_concat (log : List (κ × GateEvent)) (k j : κ) (event : GateEvent) :
    lastStep (log ++ [(k, event)]) j = if k = j then some event else lastStep log j := by
  rw [lastStep, List.reverse_concat, List.find?_cons]
  by_cases h : k = j <;> simp [h, lastStep]

theorem exists_of_lastStep (h : lastStep log k = some event) :
    ∃ earlier since, log = earlier ++ (k, event) :: since ∧ ∀ e ∈ since, e.1 ≠ k := by
  obtain ⟨⟨j, found⟩, hfind, rfl⟩ := Option.map_eq_some_iff.1 h
  obtain ⟨hj, since, earlier, hlog, halone⟩ := List.find?_eq_some_iff_append.1 hfind
  obtain rfl : j = k := by simpa using hj
  refine ⟨earlier.reverse, since.reverse, ?_, fun e he => ?_⟩
  · rw [← List.reverse_inj, hlog]
    simp
  · simpa using halone e (List.mem_reverse.1 he)

/-- What a step does to the counts. -/
theorem counts_begin (g : Gate) (call : GateCall) :
    (call.begin g).2.2.enabled = g.enabled ∧
      (call.begin g).2.2.queued = (call.begin g).1.queued?.getD g.queued ∧
      (call.begin g).2.2.connected = (call.begin g).1.connected?.getD g.connected := by
  cases call with
  | init =>
    rw [GateCall.begin, Gate.claimInit]
    by_cases hfree : g.stage = .created
    · rw [if_pos hfree]
      exact ⟨rfl, rfl, rfl⟩
    · rw [if_neg hfree]
      exact ⟨rfl, rfl, rfl⟩
  | postInit =>
    rw [GateCall.begin, Gate.claimPostInit]
    cases g.stage <;> exact ⟨rfl, rfl, rfl⟩
  | phase | report queued connected | status => exact ⟨rfl, rfl, rfl⟩

theorem counts_finish {g next : Gate} {task : GateTask} (h : task.finish g = some (event, next)) :
    next.enabled = g.enabled ∧ next.queued = event.queued?.getD g.queued ∧
      next.connected = event.connected?.getD g.connected := by
  cases task with
  | idle => cases h
  | publishInit | publishPostInit | storeConnected connected | loadConnected queued =>
    cases h
    exact ⟨rfl, rfl, rfl⟩

theorem counts_step (h : (s.step k).1 = some event) :
    (s.step k).2.gate.enabled = s.gate.enabled ∧
      (s.step k).2.gate.queued = event.queued?.getD s.gate.queued ∧
      (s.step k).2.gate.connected = event.connected?.getD s.gate.connected := by
  rcases step_cases h with ⟨gate, hfinish, hnext⟩ | ⟨-, call, rest, -, rfl, hnext⟩
  · rw [hnext]
    exact counts_finish hfinish
  · rw [hnext]
    exact counts_begin s.gate call

theorem event_begin_init (g : Gate) : (GateCall.init.begin g).1 = .claimInit g.claimInit.1 := by
  rw [GateCall.begin]
  obtain ⟨result, next⟩ := g.claimInit
  cases result <;> rfl

theorem event_begin_postInit (g : Gate) :
    (GateCall.postInit.begin g).1 = .claimPostInit g.claimPostInit.1 := by
  rw [GateCall.begin]
  obtain ⟨result, next⟩ := g.claimPostInit
  cases result <;> rfl

/-- A view begins with the first count of the moment. -/
theorem queued_of_begin {g : Gate} {call : GateCall} {queued : UInt64}
    (h : (call.begin g).1 = .loadQueued queued) : queued = g.queued := by
  cases call with
  | init => cases (event_begin_init g).symm.trans h
  | postInit => cases (event_begin_postInit g).symm.trans h
  | phase | report => cases h
  | status =>
    cases h
    rfl

theorem begin_ne_loadConnected (g : Gate) (call : GateCall) (view : JoinQueueStatus) :
    (call.begin g).1 ≠ .loadConnected view := by
  intro h
  cases call with
  | init => cases (event_begin_init g).symm.trans h
  | postInit => cases (event_begin_postInit g).symm.trans h
  | phase | report | status => cases h

theorem queued_of_step {queued : UInt64} (h : (s.step k).1 = some (.loadQueued queued)) :
    queued = s.gate.queued := by
  rcases step_cases h with ⟨gate, hfinish, -⟩ | ⟨-, call, rest, -, hbegin, -⟩
  · cases htask : s.task k <;> rw [htask] at hfinish <;> cases hfinish
  · exact queued_of_begin hbegin

/-- A view is completed with the second count of the moment. -/
theorem view_of_step {view : JoinQueueStatus} (h : (s.step k).1 = some (.loadConnected view)) :
    s.task k = .loadConnected view.queued ∧
      view = ⟨s.gate.enabled, view.queued, s.gate.connected⟩ := by
  rcases step_cases h with ⟨gate, hfinish, -⟩ | ⟨-, call, rest, -, hbegin, -⟩
  · cases htask : s.task k with
    | loadConnected queued =>
      rw [htask] at hfinish
      cases hfinish
      exact ⟨rfl, rfl⟩
    | idle | publishInit | publishPostInit | storeConnected =>
      rw [htask] at hfinish
      cases hfinish
  · exact absurd hbegin (begin_ne_loadConnected s.gate call view)

omit [DecidableEq κ] in
/-- Who has yet to load the second count has just loaded the first one. -/
theorem GateMove.eq_loadQueued {stage next : GateStage} {task : GateTask} {queued : UInt64}
    (h : GateMove stage task event next (.loadConnected queued)) : event = .loadQueued queued := by
  cases h
  rfl

/-- Each step keeps the counts. -/
theorem Counts.step (h : Counts enabled s log) (k : κ) :
    Counts enabled (s.step k).2 (log ++ (s.step k).1.toList.map (k, ·)) := by
  cases hevent : (s.step k).1 with
  | none =>
    rw [step_of_none hevent, Option.toList_none, List.map_nil, List.append_nil]
    exact h
  | some event =>
    obtain ⟨henabled, hqueued, hconnected⟩ := counts_step hevent
    obtain ⟨hmove, hothers⟩ := move_step hevent
    rw [Option.toList_some, List.map_singleton]
    refine ⟨henabled.trans h.enabled_eq, ?_, ?_, fun j queued hj => ?_⟩
    · rw [hqueued, latest_concat, h.queued_eq]
    · rw [hconnected, latest_concat, h.connected_eq]
    · rw [lastStep_concat]
      by_cases hkj : k = j
      · subst hkj
        rw [hj] at hmove
        rw [if_pos rfl, hmove.eq_loadQueued]
      · rw [if_neg hkj]
        exact h.loading j queued (hothers j (Ne.symm hkj) ▸ hj)

theorem Counts.after (h : Counts enabled s log) (schedule : List κ) :
    Counts enabled (s.after schedule) (log ++ s.history schedule) := by
  induction schedule generalizing s log with
  | nil =>
    rw [history, List.append_nil]
    exact h
  | cons k rest ih =>
    have hrest := ih (h.step k)
    rw [List.append_assoc] at hrest
    exact hrest

theorem counts_start (enabled : Bool) (todo : κ → List GateCall) :
    Counts enabled (start enabled todo) [] where
  enabled_eq := rfl
  queued_eq := rfl
  connected_eq := rfl
  loading := nofun

/-- The counts just before a step that has happened. -/
theorem Counts.of_history_eq (h : Counts enabled s []) {schedule : List κ}
    {before later : List (κ × GateEvent)}
    (hhistory : s.history schedule = before ++ (k, event) :: later) :
    ∃ t, Counts enabled t before ∧ (t.step k).1 = some event := by
  obtain ⟨first, rest, -, hbefore, hstep⟩ := exists_of_history_eq hhistory
  have hcounts := h.after first
  rw [hbefore, List.nil_append] at hcounts
  exact ⟨s.after first, hcounts, hstep⟩

/-! ## Views -/

variable {first between : List (κ × GateEvent)} {view : JoinQueueStatus}

omit [DecidableEq κ] in
theorem eq_loadConnected_of_answer? (h : event.answer? = some (.status view)) :
    event = .loadConnected view := by
  cases event with
  | claimInit result | claimPostInit result => cases result <;> cases h
  | publishInit | publishPostInit | loadPhase | storeQueued | storeConnected | loadQueued => cases h
  | loadConnected =>
    cases h
    rfl

/-- Each answer to a call for a view is a view that was taken. -/
theorem Counts.takesView (h : Counts enabled s []) {schedule : List κ}
    {before later : List (κ × GateEvent)}
    (hhistory : s.history schedule = before ++ (k, event) :: later)
    (hanswer : event.answer? = some (.status view)) :
    ∃ first between, before = first ++ (k, .loadQueued view.queued) :: between ∧
      TakesView (s.history schedule) first k between view := by
  obtain rfl := eq_loadConnected_of_answer? hanswer
  obtain ⟨t, ht, hstep⟩ := h.of_history_eq hhistory
  have hlast := ht.loading k view.queued (view_of_step hstep).1
  obtain ⟨first, between, rfl, halone⟩ := exists_of_lastStep hlast
  exact ⟨first, between, rfl, ⟨later, hhistory⟩, halone⟩

/-- Each count of a view is the one that was stored last when it was loaded. -/
theorem Counts.view_eq (h : Counts enabled s []) {schedule : List κ}
    (hview : TakesView (s.history schedule) first k between view) :
    view = ⟨enabled, latest GateEvent.queued? first,
      latest GateEvent.connected? (first ++ (k, .loadQueued view.queued) :: between)⟩ := by
  obtain ⟨⟨later, hhistory⟩, -⟩ := hview
  obtain ⟨t, ht, hstep⟩ := h.of_history_eq hhistory
  have hfirst : s.history schedule = first ++ (k, .loadQueued view.queued) ::
      (between ++ (k, .loadConnected view) :: later) := by
    rw [hhistory]
    simp
  obtain ⟨u, hu, hload⟩ := h.of_history_eq hfirst
  rw [(view_of_step hstep).2, ← ht.enabled_eq, ← ht.connected_eq, ← hu.queued_eq]
  simp [queued_of_step hload]

section OneReport

variable {before : List (κ × GateEvent)}

/-- Counts that come from one report are as reported. -/
theorem OneReport.asReported (h : OneReport first before)
    (hqueued : view.queued = latest GateEvent.queued? first)
    (hconnected : view.connected = latest GateEvent.connected? before) :
    AsReported before view := by
  cases h with
  | unreported noQueued noConnected =>
    rw [latest_of_forall noQueued] at hqueued
    rw [latest_of_forall noConnected] at hconnected
    exact Or.inr ⟨hqueued, hconnected, noConnected⟩
  | reported k queued connected earlier middle since later first_eq lastQueued before_eq alone
      lastConnected =>
    left
    rw [first_eq, latest_of_split rfl earlier lastQueued] at hqueued
    have hlast : latest GateEvent.connected? before = connected := by
      rw [before_eq]
      exact latest_of_split rfl _ lastConnected
    rw [hlast] at hconnected
    rw [hqueued, hconnected, mem_reports_iff]
    exact ⟨k, earlier, middle, later, before_eq, alone⟩

omit [DecidableEq κ] in
/-- Where no count is stored twice, the store of the count that a part of a history leaves is the
last one of that part. -/
theorem exists_since_of_split {tell : GateEvent → Option UInt64} (hnodup : (told tell log).Nodup)
    (hzero : 0 ∉ told tell log) {x : κ × GateEvent} {part rest earlier later : List (κ × GateEvent)}
    (hpart : log = part ++ rest) (hsplit : log = earlier ++ x :: later)
    (hx : tell x.2 = some (latest tell part)) :
    ∃ since, part = earlier ++ x :: since ∧ ∀ e ∈ since, tell e.2 = none := by
  obtain ⟨k, event⟩ := x
  have hmem : latest tell part ∈ told tell log := by
    rw [hsplit, told_append, told_cons_of_eq_some hx]
    simp
  rcases forall_or_exists_split tell part with hnone | ⟨start, j, last, since, hlast, htell, hsince⟩
  · rw [latest_of_forall hnone] at hmem
    exact absurd hmem hzero
  · have hstart : log = start ++ (j, last) :: (since ++ rest) := by
      rw [hpart, hlast]
      simp
    -- no other store brought this count, so the last one is the one that is given
    obtain ⟨rfl, hsame, -⟩ := split_eq_of_nodup hnodup htell hx hstart hsplit
    exact ⟨since, hsame ▸ hlast, hsince⟩

/-- Counts that tell which report they are from are as reported only if they come from one. -/
theorem oneReport_of_asReported {rest : List (κ × GateEvent)} (hbefore : before = first ++ rest)
    (htell : TellApart before) (hqueued : view.queued = latest GateEvent.queued? first)
    (hconnected : view.connected = latest GateEvent.connected? before)
    (h : AsReported before view) : OneReport first before := by
  obtain ⟨hnodupQueued, hzeroQueued⟩ := htell GateEvent.queued? (by simp)
  obtain ⟨hnodupConnected, hzeroConnected⟩ := htell GateEvent.connected? (by simp)
  rcases h with hreport | ⟨hzero, -, hnone⟩
  · obtain ⟨k, earlier, middle, later, heq, halone⟩ := mem_reports_iff.1 hreport
    have hstore : before = earlier ++ (k, .storeQueued view.queued) ::
        (middle ++ (k, .storeConnected view.connected) :: later) := by
      rw [heq]
      simp
    obtain ⟨since, hfirst, hsince⟩ := exists_since_of_split hnodupQueued hzeroQueued hbefore hstore
      (congrArg some hqueued)
    obtain ⟨since', hlast, hsince'⟩ := exists_since_of_split hnodupConnected hzeroConnected
      (List.append_nil before).symm heq (congrArg some hconnected)
    exact .reported k _ _ earlier middle since since' hfirst hsince hlast halone hsince'
  · refine .unreported ?_ hnone
    rcases forall_or_exists_split GateEvent.queued? first with hfirst | ⟨start, k, event, since,
      hfirst, hevent, -⟩
    · exact hfirst
    · rw [← hqueued, hzero] at hevent
      refine absurd ?_ hzeroQueued
      rw [hbefore, hfirst, told_append, told_append, told_cons_of_eq_some hevent]
      simp

end OneReport

omit [DecidableEq κ] in
/-- Where reports have been made one after the other, and none while a view is taken, the view shows
the last one. -/
theorem latest_of_stores_eq {made : List (κ × UInt64 × UInt64)}
    (hmade : stores first = made.flatMap stored) (hquiet : stores between = [])
    (hload : event.isStore = false) :
    (latest GateEvent.queued? first,
        latest GateEvent.connected? (first ++ (k, event) :: between)) =
      (made.getLast?.map Prod.snd).getD (0, 0) := by
  have hbefore : stores (first ++ (k, event) :: between) = stores first := by
    rw [stores, List.filter_append, ← stores, List.filter_cons_of_neg (by simp [hload]), ← stores,
      hquiet, List.append_nil]
  rw [← latest_flatMap_stored, ← hmade, latest_stores fun _ _ => isStore_of_queued?]
  conv_rhs => rw [← hbefore]
  rw [latest_stores fun _ _ => isStore_of_connected?]

/-! ## Every schedule -/

/-- Whatever calls any callers make on a new gate, and however their steps fall between each other:
each answer to a call for a view is taken in two loads, and each of them finds the count that was
stored last. So a view shows the counts of one report, or nothing before there is one, if its counts
come from one report, and only then where counts tell which report they are from. Where reports have
been made one after the other, and none stores a count between the two loads, it shows the last. -/
theorem views_of_every_schedule (enabled : Bool) (todo : κ → List GateCall) (schedule : List κ) :
    let h := (start enabled todo).history schedule
    (∀ before k event later view, h = before ++ (k, event) :: later →
        event.answer? = some (.status view) →
        ∃ first between, before = first ++ (k, .loadQueued view.queued) :: between ∧
          TakesView h first k between view) ∧
      ∀ first k between view, TakesView h first k between view →
        let before := first ++ (k, .loadQueued view.queued) :: between
        view = ⟨enabled, latest GateEvent.queued? first, latest GateEvent.connected? before⟩ ∧
          (OneReport first before → AsReported before view) ∧
          (TellApart before → AsReported before view → OneReport first before) ∧
          ∀ made : List (κ × UInt64 × UInt64), stores first = made.flatMap stored →
            stores between = [] →
              (view.queued, view.connected) = (made.getLast?.map Prod.snd).getD (0, 0) := by
  intro h
  have hstart : Counts enabled (start enabled todo) [] := counts_start enabled todo
  refine ⟨fun before k event later view => hstart.takesView, fun first k between view hview => ?_⟩
  intro before
  have heq : view = ⟨enabled, latest GateEvent.queued? first,
      latest GateEvent.connected? before⟩ := hstart.view_eq hview
  have hqueued := congrArg JoinQueueStatus.queued heq
  have hconnected := congrArg JoinQueueStatus.connected heq
  refine ⟨heq, fun hone => hone.asReported hqueued hconnected, fun htell hreported => ?_,
    fun made hmade hquiet => ?_⟩
  · exact oneReport_of_asReported rfl htell hqueued hconnected hreported
  · rw [hqueued, hconnected]
    exact latest_of_stores_eq hmade hquiet rfl

/-- A report that begins while a view is taken leaves the view with the report before it. -/
theorem views_of_every_schedule_overtaken :
    let s := start true fun reporter : Bool =>
      if reporter then [.report 4 80, .report 2 81] else [.status]
    let h := s.history [true, true, false, true, false, true]
    let first := [(true, .storeQueued 4), (true, .storeConnected 80)]
    let between := [(true, .storeQueued 2)]
    let before := first ++ (false, .loadQueued 4) :: between
    TakesView h first false between ⟨true, 4, 80⟩ ∧ OneReport first before ∧ TellApart before ∧
      AsReported before ⟨true, 4, 80⟩ := by
  intro s h first between before
  have hview : TakesView h first false between ⟨true, 4, 80⟩ := ⟨⟨_, rfl⟩, by decide⟩
  have hone : OneReport first before :=
    .reported true 4 80 [] [] [(true, .storeConnected 80)]
      [(false, .loadQueued 4), (true, .storeQueued 2)] rfl (by decide) rfl (by decide) (by decide)
  obtain ⟨-, hreported, -, -⟩ :=
    (views_of_every_schedule true (fun reporter : Bool =>
      if reporter then [.report 4 80, .report 2 81] else [.status]) _).2 first false between _ hview
  exact ⟨hview, hone, by decide, hreported hone⟩

/-- A view whose first load comes before a report and whose second load comes after it shows counts
that nobody has reported, and that the gate has held at no moment. -/
theorem view_mixes_two_moments :
    let s := start true fun reporter : Bool => if reporter then [.report 1 1] else [.status]
    let schedule := [false, true, true, false]
    s.history schedule = [(false, .loadQueued 0), (true, .storeQueued 1), (true, .storeConnected 1),
        (false, .loadConnected ⟨true, 0, 1⟩)] ∧
      s.answers schedule = [(true, .report), (false, .status ⟨true, 0, 1⟩)] ∧
      ¬ AsReported (s.history schedule) ⟨true, 0, 1⟩ ∧
      ∀ n ≤ schedule.length, (s.after (schedule.take n)).gate.status ≠ ⟨true, 0, 1⟩ := by
  decide

end DecidableEq

end GateCallers

end Station
