import Mathlib.Data.List.Basic
import Mathlib.Data.List.Induction
import Station.WoundLicking

/-!
# A wound is licked once

One action may be tried any number of times, against any scheduler. What reaches the scheduler is
seen by putting a `Watched` one in its place, which answers as it does and writes down each request
with its answer (`Attempts.unwatch_after`).

An attempt on a handled action reaches nothing and changes nothing, and any other asks the scheduler
once and leaves the action handled exactly if the request was accepted. So throughout every sequence
of attempts (`AsksOnce`) the scheduler is asked by the first attempts only, one request each, up to
the one that is accepted.
-/

namespace Station

/-- A scheduler, with the requests that have reached it and what it has answered. -/
structure Watched (σ : Type) where
  /-- The scheduler itself. -/
  scheduler : σ
  /-- The requests with their answers, in order. -/
  log : List (DoAfterRequest DoAfterEvent × Option DoAfterId) := []

/-- Attempts at one action. -/
structure Attempts (σ : Type) where
  /-- The action as it was left. -/
  action : TargetedAction
  /-- The scheduler as it was left. -/
  scheduler : σ
  /-- What the attempts have answered, in order. -/
  answers : List (Option DoAfterId) := []

variable {σ : Type} [DoAfterScheduler σ DoAfterEvent] {action : TargetedAction}

namespace Watched

/-- Whether any request was accepted. -/
def hasAccepted (w : Watched σ) : Bool := w.log.any (·.2.isSome)

omit [DoAfterScheduler σ DoAfterEvent] in
theorem hasAccepted_eq_false_iff {w : Watched σ} :
    w.hasAccepted = false ↔ ∀ entry ∈ w.log, entry.2 = none := by
  simp [hasAccepted]

omit [DoAfterScheduler σ DoAfterEvent] in
theorem hasAccepted_iff {w : Watched σ} :
    w.hasAccepted = true ↔ ∃ request id, (request, some id) ∈ w.log := by
  simp [hasAccepted, Option.isSome_iff_exists]

/-- Asks the scheduler and writes down what it answers. -/
def tryStart (w : Watched σ) (request : DoAfterRequest DoAfterEvent) :
    Option DoAfterId × Watched σ :=
  let (answer, scheduler) := DoAfterScheduler.tryStart w.scheduler request
  (answer, ⟨scheduler, w.log ++ [(request, answer)]⟩)

/-- Cancels a do-after of the scheduler. -/
def cancel (w : Watched σ) (id : DoAfterId) : Bool × Watched σ :=
  let (running, scheduler) := DoAfterScheduler.cancel w.scheduler id
  (running, { w with scheduler })

instance : DoAfterScheduler (Watched σ) DoAfterEvent where
  tryStart := tryStart
  cancel := cancel

end Watched

namespace Attempts

/-- One more attempt. -/
def once (a : Attempts σ) (delay : Delay) : Attempts σ :=
  let (answer, action, scheduler) := startWoundLicking a.action delay a.scheduler
  ⟨action, scheduler, a.answers ++ [answer]⟩

/-- Some more attempts, one for each delay. -/
def after (a : Attempts σ) (delays : List Delay) : Attempts σ := delays.foldl once a

/-- The same attempts at the scheduler that is watched. -/
def unwatch (a : Attempts (Watched σ)) : Attempts σ := ⟨a.action, a.scheduler.scheduler, a.answers⟩

end Attempts

/-! ## One attempt -/

/-- Nothing is asked for an action that was handled. -/
theorem startWoundLicking_of_handled (h : action.handled = true) (delay : Delay) (s : σ) :
    startWoundLicking action delay s = (none, action, s) := if_pos h

/-- Any other action is handled afterwards exactly if the request is accepted. -/
theorem startWoundLicking_of_unhandled (h : action.handled = false) (delay : Delay) (s : σ) :
    startWoundLicking action delay s =
      let asked := DoAfterScheduler.tryStart s (action.lickRequest delay)
      (asked.1, { action with handled := asked.1.isSome }, asked.2) := by
  have hsame : { action with handled := false } = action := by rw [← h]
  rw [startWoundLicking, h]
  obtain ⟨answer, scheduler⟩ := DoAfterScheduler.tryStart s (action.lickRequest delay)
  cases answer with
  | none => simp [hsame]
  | some id => simp

/-- An attempt answers with an id exactly if the action was not handled and the scheduler has given
that id to the request of the attempt. -/
theorem startWoundLicking_eq_some_iff (action : TargetedAction) (delay : Delay) (s : σ)
    (id : DoAfterId) :
    (startWoundLicking action delay s).1 = some id ↔
      action.handled = false ∧
        (DoAfterScheduler.tryStart s (action.lickRequest delay)).1 = some id := by
  cases h : action.handled with
  | true => simp [startWoundLicking_of_handled h]
  | false => simp [startWoundLicking_of_unhandled h]

/-- An attempt without an id leaves the action as it was. -/
theorem action_of_startWoundLicking_eq_none {delay : Delay} {s : σ}
    (h : (startWoundLicking action delay s).1 = none) :
    (startWoundLicking action delay s).2.1 = action := by
  cases hhandled : action.handled with
  | true => rw [startWoundLicking_of_handled hhandled]
  | false =>
    rw [startWoundLicking_of_unhandled hhandled] at h ⊢
    dsimp only at h ⊢
    rw [h, Option.isSome_none, ← hhandled]

namespace Attempts

theorem once_of_handled {a : Attempts σ} (h : a.action.handled = true) (delay : Delay) :
    a.once delay = { a with answers := a.answers ++ [none] } := by
  rw [once, startWoundLicking_of_handled h]

/-- What an attempt on an action that is not handled makes of a watched scheduler. -/
theorem once_of_unhandled {a : Attempts (Watched σ)} (h : a.action.handled = false)
    (delay : Delay) :
    a.once delay =
      let request := a.action.lickRequest delay
      let asked := DoAfterScheduler.tryStart a.scheduler.scheduler request
      { action := { a.action with handled := asked.1.isSome }
        scheduler := ⟨asked.2, a.scheduler.log ++ [(request, asked.1)]⟩
        answers := a.answers ++ [asked.1] } := by
  rw [once, startWoundLicking_of_unhandled h]
  rfl

/-- Watching makes no difference to an attempt. -/
theorem unwatch_once (a : Attempts (Watched σ)) (delay : Delay) :
    (a.once delay).unwatch = a.unwatch.once delay := by
  cases h : a.action.handled with
  | true =>
    have h' : a.unwatch.action.handled = true := h
    rw [once_of_handled h, once_of_handled h']
    rfl
  | false =>
    have h' : a.unwatch.action.handled = false := h
    rw [once_of_unhandled h, once, startWoundLicking_of_unhandled h']
    rfl

theorem after_concat (a : Attempts σ) (delays : List Delay) (delay : Delay) :
    a.after (delays ++ [delay]) = (a.after delays).once delay := by
  rw [after, List.foldl_concat, ← after]

theorem unwatch_after (a : Attempts (Watched σ)) (delays : List Delay) :
    (a.after delays).unwatch = a.unwatch.after delays := by
  induction delays using List.reverseRecOn with
  | nil => rfl
  | append_singleton delays delay ih => rw [after_concat, after_concat, unwatch_once, ih]

end Attempts

/-! ## All attempts -/

/-- What holds after attempts with some delays at an action. -/
structure AsksOnce (start : TargetedAction) (delays : List Delay) (a : Attempts (Watched σ)) :
    Prop where
  /-- The requests are those of the first attempts, one each. -/
  requests_eq : a.scheduler.log.map (·.1) =
    (delays.take a.scheduler.log.length).map start.lickRequest
  /-- These attempts answer as the scheduler does, and all later ones with nothing. -/
  answers_eq : a.answers =
    a.scheduler.log.map (·.2) ++ List.replicate (delays.length - a.scheduler.log.length) none
  /-- The action is marked by the first request that is accepted, and otherwise stays as it is. -/
  action_eq : a.action = { start with handled := start.handled || a.scheduler.hasAccepted }
  log_of_handled : start.handled = true → a.scheduler.log = []
  /-- No request is made after one that was accepted. -/
  rejected : ∀ entry ∈ a.scheduler.log.dropLast, entry.2 = none
  /-- As long as the action is not handled, every attempt asks. -/
  length_log : a.action.handled = false → a.scheduler.log.length = delays.length

namespace AsksOnce

variable {start : TargetedAction} {delays : List Delay} {a : Attempts (Watched σ)}

omit [DoAfterScheduler σ DoAfterEvent] in
theorem length_le (h : AsksOnce start delays a) : a.scheduler.log.length ≤ delays.length := by
  have hlength := congrArg List.length h.requests_eq
  rw [List.length_map, List.length_map, List.length_take] at hlength
  exact hlength ▸ Nat.min_le_right ..

omit [DoAfterScheduler σ DoAfterEvent] in
/-- As long as every request is rejected, the action stays as it is. -/
theorem action_eq_of_rejected (h : AsksOnce start delays a)
    (hnone : a.scheduler.hasAccepted = false) : a.action = start := by
  rw [h.action_eq, hnone, Bool.or_false]

omit [DoAfterScheduler σ DoAfterEvent] in
theorem rejected_of_unhandled (h : AsksOnce start delays a) (hhandled : a.action.handled = false) :
    a.scheduler.hasAccepted = false := by
  rw [h.action_eq, Bool.or_eq_false_iff] at hhandled
  exact hhandled.2

omit [DoAfterScheduler σ DoAfterEvent] in
theorem of_nil (start : TargetedAction) (s : σ) :
    AsksOnce start [] ({ action := start, scheduler := ⟨s, []⟩ } : Attempts (Watched σ)) where
  requests_eq := rfl
  answers_eq := rfl
  action_eq := by simp [Watched.hasAccepted]
  log_of_handled _ := rfl
  rejected := by simp
  length_log _ := rfl

/-- One more attempt at an action that is handled asks nothing. -/
theorem once_of_handled (h : AsksOnce start delays a) (hhandled : a.action.handled = true)
    (delay : Delay) : AsksOnce start (delays ++ [delay]) (a.once delay) := by
  rw [Attempts.once_of_handled hhandled]
  have hle := h.length_le
  constructor
  case requests_eq => rw [List.take_append_of_le_length hle, h.requests_eq]
  case answers_eq =>
    have hcount : (delays ++ [delay]).length - a.scheduler.log.length =
        delays.length - a.scheduler.log.length + 1 := by
      rw [List.length_append, List.length_singleton, Nat.sub_add_comm hle]
    rw [hcount, h.answers_eq, List.append_assoc, List.replicate_succ']
  case action_eq => exact h.action_eq
  case log_of_handled => exact h.log_of_handled
  case rejected => exact h.rejected
  case length_log => exact fun hfalse => absurd (hhandled.symm.trans hfalse) (by decide)

/-- One more attempt at an action that is not handled makes one more request. -/
theorem once_of_unhandled (h : AsksOnce start delays a) (hhandled : a.action.handled = false)
    (delay : Delay) : AsksOnce start (delays ++ [delay]) (a.once delay) := by
  -- nothing was accepted so far, so the action is still the one of the beginning
  have hnone := h.rejected_of_unhandled hhandled
  have hlength := h.length_log hhandled
  have haction := h.action_eq_of_rejected hnone
  have hstart : start.handled = false := haction ▸ hhandled
  rw [Attempts.once_of_unhandled hhandled, haction]
  constructor
  case requests_eq =>
    have hall : (delays ++ [delay]).take (delays.length + 1) = delays ++ [delay] :=
      List.take_of_length_le (by simp)
    have hrequests := h.requests_eq
    rw [hlength, List.take_length] at hrequests
    simp only [List.map_append, List.map_singleton, List.length_append, List.length_singleton,
      hlength, hall, hrequests]
  case answers_eq =>
    have hanswers := h.answers_eq
    rw [hlength, Nat.sub_self, List.replicate_zero, List.append_nil] at hanswers
    simp [hanswers, hlength]
  case action_eq =>
    rw [Watched.hasAccepted] at hnone ⊢
    simp [hstart, hnone]
  case log_of_handled => exact fun htrue => absurd (hstart.symm.trans htrue) (by decide)
  case rejected =>
    rw [List.dropLast_concat]
    exact Watched.hasAccepted_eq_false_iff.1 hnone
  case length_log => simp [hlength]

theorem once (h : AsksOnce start delays a) (delay : Delay) :
    AsksOnce start (delays ++ [delay]) (a.once delay) := by
  cases hhandled : a.action.handled with
  | true => exact h.once_of_handled hhandled delay
  | false => exact h.once_of_unhandled hhandled delay

theorem after (start : TargetedAction) (s : σ) (delays : List Delay) :
    AsksOnce start delays
      (Attempts.after { action := start, scheduler := (⟨s, []⟩ : Watched σ) } delays) := by
  induction delays using List.reverseRecOn with
  | nil => exact of_nil start s
  | append_singleton delays delay ih =>
    rw [Attempts.after_concat]
    exact ih.once delay

omit [DoAfterScheduler σ DoAfterEvent] in
theorem countP_accepted_le_one (h : AsksOnce start delays a) :
    a.scheduler.log.countP (·.2.isSome) ≤ 1 := by
  rcases List.eq_nil_or_concat' a.scheduler.log with hnil | ⟨before, last, hlog⟩
  · simp [hnil]
  · -- an accepted request can only be the last one
    have hbefore : before.countP (·.2.isSome) = 0 := by
      rw [List.countP_eq_zero]
      intro entry hentry
      have hrejected := h.rejected entry
      rw [hlog, List.dropLast_concat] at hrejected
      simp [hrejected hentry]
    rw [hlog, List.countP_append, hbefore, Nat.zero_add, List.countP_singleton]
    split <;> simp

omit [DoAfterScheduler σ DoAfterEvent] in
/-- Every request is that of an attempt at the action as it was in the beginning. -/
theorem exists_delay (h : AsksOnce start delays a)
    {entry : DoAfterRequest DoAfterEvent × Option DoAfterId} (hentry : entry ∈ a.scheduler.log) :
    ∃ delay ∈ delays, entry.1 = start.lickRequest delay := by
  have hmem : entry.1 ∈ a.scheduler.log.map (·.1) := List.mem_map_of_mem hentry
  rw [h.requests_eq] at hmem
  obtain ⟨delay, hdelay, heq⟩ := List.mem_map.1 hmem
  exact ⟨delay, List.mem_of_mem_take hdelay, heq.symm⟩

omit [DoAfterScheduler σ DoAfterEvent] in
theorem lickRequest_eq (h : AsksOnce start delays a) (delay : Delay) :
    a.action.lickRequest delay = start.lickRequest delay := by
  rw [h.action_eq]
  rfl

end AsksOnce

/-- Of all attempts at an action, whatever the scheduler does, at most one has its request accepted.
The requests are those of the first attempts, up to the accepted one, and each of them names the
performer and the target. The performer and the target stay, and the action is handled in the end
exactly if it was in the beginning or a request was accepted. One more attempt answers with an id
exactly if the action is not handled yet and the scheduler gives that id to its request. If it does
not, the action stays as it is, and for a handled action the scheduler is not even asked. -/
theorem wound_is_licked_once (scheduler : σ) (start : TargetedAction) (delays : List Delay) :
    let a := Attempts.after { action := start, scheduler := (⟨scheduler, []⟩ : Watched σ) } delays
    a.unwatch = Attempts.after { action := start, scheduler } delays ∧
      AsksOnce start delays a ∧
      a.scheduler.log.countP (·.2.isSome) ≤ 1 ∧
      (∀ entry ∈ a.scheduler.log,
        entry.1.user = start.performer ∧ entry.1.target = some start.target ∧
          entry.1.event =
            { user := start.performer, target := some start.target, cancelled := false
              handled := false }) ∧
      a.action.performer = start.performer ∧ a.action.target = start.target ∧
      (a.action.handled = true ↔
        start.handled = true ∨ ∃ request id, (request, some id) ∈ a.scheduler.log) ∧
      ∀ delay,
        let next := startWoundLicking a.action delay a.scheduler
        (∀ id, next.1 = some id ↔ a.action.handled = false ∧
          (DoAfterScheduler.tryStart a.scheduler.scheduler (start.lickRequest delay)).1 = some id) ∧
        (a.action.handled = false →
          next.2.2.log = a.scheduler.log ++ [(start.lickRequest delay, next.1)]) ∧
        (a.action.handled = true → next = (none, a.action, a.scheduler)) ∧
        (next.1 = none → next.2.1 = a.action) := by
  intro a
  have h : AsksOnce start delays a := AsksOnce.after start scheduler delays
  refine ⟨Attempts.unwatch_after _ delays, h, h.countP_accepted_le_one, ?_, ?_, ?_, ?_, ?_⟩
  · intro entry hentry
    obtain ⟨delay, -, hrequest⟩ := h.exists_delay hentry
    rw [hrequest]
    exact ⟨rfl, rfl, rfl⟩
  · rw [h.action_eq]
  · rw [h.action_eq]
  · rw [h.action_eq, Bool.or_eq_true, Watched.hasAccepted_iff]
  · intro delay next
    refine ⟨fun id => ?_, fun hhandled => ?_, fun hhandled => ?_,
      action_of_startWoundLicking_eq_none⟩
    · rw [← h.lickRequest_eq]
      exact startWoundLicking_eq_some_iff a.action delay a.scheduler id
    · have hnext := startWoundLicking_of_unhandled hhandled delay a.scheduler
      rw [← h.lickRequest_eq]
      simp only [next, hnext]
      rfl
    · exact startWoundLicking_of_handled hhandled delay a.scheduler

/-- A scheduler that rejects some requests and accepts all later ones. -/
structure Reluctant where
  /-- How many requests are still rejected. -/
  refusals : Nat
  /-- The last id that was given out. -/
  lastId : UInt64 := 0

instance : DoAfterScheduler Reluctant DoAfterEvent where
  tryStart s _ :=
    match s.refusals with
    | 0 => (some ⟨s.lastId + 1⟩, { s with lastId := s.lastId + 1 })
    | refusals + 1 => (none, { s with refusals })
  cancel s _ := (false, s)

theorem wound_is_licked_once_retried :
    let start : TargetedAction := { performer := ⟨10⟩, target := ⟨20⟩ }
    let tried : List Delay → Attempts (Watched Reluctant) :=
      Attempts.after { action := start, scheduler := ⟨⟨1, 0⟩, []⟩ }
    let rejected := tried [⟨4, 0⟩]
    let licked := tried [⟨4, 0⟩, ⟨3, 0⟩]
    rejected.answers = [none] ∧
      (startWoundLicking rejected.action ⟨3, 0⟩ rejected.scheduler).1 = some ⟨1⟩ ∧
      licked.action.handled = true ∧
      startWoundLicking licked.action ⟨2, 0⟩ licked.scheduler =
        (none, licked.action, licked.scheduler) := by
  intro start tried rejected licked
  obtain ⟨-, -, -, -, -, -, -, hretry⟩ := wound_is_licked_once (⟨1, 0⟩ : Reluctant) start [⟨4, 0⟩]
  obtain ⟨-, -, -, -, -, -, hhandled, hlater⟩ :=
    wound_is_licked_once (⟨1, 0⟩ : Reluctant) start [⟨4, 0⟩, ⟨3, 0⟩]
  have hlicked : licked.action.handled = true :=
    hhandled.2 (Or.inr ⟨start.lickRequest ⟨3, 0⟩, ⟨1⟩, List.mem_cons_of_mem _ List.mem_cons_self⟩)
  exact ⟨rfl, ((hretry ⟨3, 0⟩).1 ⟨1⟩).2 ⟨rfl, rfl⟩, hlicked, (hlater ⟨2, 0⟩).2.2.1 hlicked⟩

end Station
