import Mathlib.Data.List.Chain
import Station.Proofs.Server

/-!
# Every carry that begins ends once

A `CarryMark` is a moment at which an entity is picked up or dropped, and the history of a run is
the list of its marks in order. One request leaves at most one mark on each entity, and only one
that fits how the entity was (`marksOn_perform`). So the marks on an entity take turns over a whole
run, and at any point as many carries are in the tables as were begun and have not been dropped.
-/

namespace Station

/-- The begin or the end of the carry of an entity. -/
inductive CarryMark where
  /-- The entity was picked up. -/
  | lifted (uid : EntityUid)
  /-- A drop was raised on the entity. -/
  | dropped (uid : EntityUid)
  deriving DecidableEq, Repr

namespace CarryMark

/-- The entity that was carried. -/
def uid : CarryMark → EntityUid
  | .lifted uid => uid
  | .dropped uid => uid

/-- Whether a carry began. -/
def isLift : CarryMark → Bool
  | .lifted _ => true
  | .dropped _ => false

/-- Whether a carry ended. -/
def isDrop (m : CarryMark) : Bool := !m.isLift

/-- The marks on one entity. -/
def on (uid : EntityUid) (marks : List CarryMark) : List CarryMark :=
  marks.filter fun m => decide (m.uid = uid)

theorem on_append (uid : EntityUid) (marks later : List CarryMark) :
    on uid (marks ++ later) = on uid marks ++ on uid later :=
  List.filter_append marks later

theorem on_lifted (uid : EntityUid) : on uid [.lifted uid] = [.lifted uid] := by
  simp [on, CarryMark.uid]

theorem on_dropped (uid : EntityUid) : on uid [.dropped uid] = [.dropped uid] := by
  simp [on, CarryMark.uid]

theorem on_lifted_of_ne {uid other : EntityUid} (h : uid ≠ other) :
    on uid [.lifted other] = [] := by
  simp [on, CarryMark.uid, Ne.symm h]

/-- Drops on other entities are no marks on an entity. -/
theorem on_map_dropped {uid : EntityUid} {uids : List EntityUid} (h : uid ∉ uids) :
    on uid (uids.map .dropped) = [] := by
  rw [on, List.filter_eq_nil_iff]
  intro m hm
  obtain ⟨other, hother, rfl⟩ := List.mem_map.1 hm
  rw [decide_eq_true_eq]
  rintro rfl
  exact h hother

theorem count_lifted_on (uid : EntityUid) (marks : List CarryMark) :
    (on uid marks).count (.lifted uid) = marks.count (.lifted uid) :=
  List.count_filter (by simp [CarryMark.uid])

theorem count_dropped_on (uid : EntityUid) (marks : List CarryMark) :
    (on uid marks).count (.dropped uid) = marks.count (.dropped uid) :=
  List.count_filter (by simp [CarryMark.uid])

theorem countP_isDrop (uids : List EntityUid) :
    (uids.map CarryMark.dropped).countP isDrop = uids.length := by
  rw [List.countP_map]
  exact List.countP_eq_length.2 fun _ _ => rfl

theorem countP_isLift (uids : List EntityUid) :
    (uids.map CarryMark.dropped).countP isLift = 0 := by
  rw [List.countP_map]
  exact List.countP_eq_zero.2 fun _ _ h => nomatch h

end CarryMark

/-- The marks that a request leaves: the entity that was picked up, then those that were dropped. -/
def Effect.marks (e : Effect (Option EntityUid)) : List CarryMark :=
  (match e.answer with
    | .ok (some uid) => [.lifted uid]
    | .ok none => []
    | .error _ => []) ++ e.dropped.map .dropped

namespace Server

/-- The marks of a run, in order. -/
def history (s : Server) : List Request → List CarryMark
  | [] => []
  | request :: rest => (s.perform request).marks ++ (s.perform request).server.history rest

/-- Whether an entity is being carried. -/
def isCarried (s : Server) (uid : EntityUid) : Bool := (s.carries.carrier? uid).isSome

variable {s : Server}

/-! ## The marks of one request -/

theorem marks_spawn (h : s.Sound) (prototype : PrototypeId) :
    (s.perform (.spawn prototype)).marks = [] := by
  rw [perform, spawn_eq h]
  rfl

theorem marks_pickUp_of_free (h : s.Sound) {carrier carried : EntityUid}
    (hfree : s.carries.Free carrier carried) :
    (s.perform (.pickUp carrier carried)).marks = [.lifted carried] := by
  rw [perform, pickUp_of_free h hfree]
  rfl

theorem marks_pickUp_of_not_free (h : s.Sound) {carrier carried : EntityUid}
    (hfree : ¬ s.carries.Free carrier carried) :
    (s.perform (.pickUp carrier carried)).marks = [] := by
  obtain ⟨failure, hfail⟩ := pickUp_of_not_free h hfree
  rw [perform, hfail]
  rfl

theorem marks_drop (h : s.Sound) (carried : EntityUid) :
    (s.perform (.drop carried)).marks =
      (if s.isCarried carried then [carried] else []).map .dropped := by
  rw [perform, drop_eq h]
  rfl

theorem marks_despawn (h : s.Sound) (uid : EntityUid) :
    (s.perform (.despawn uid)).marks =
      (if s.isCarried uid then [uid] else []).map .dropped ++
        (s.carries.load? uid).toList.map .dropped := by
  rw [perform, despawn_eq h, ← List.map_append]
  rfl

theorem marks_edit (h : s.Sound) (uid : EntityUid) (change : Felinid → Felinid) :
    (s.perform (.edit uid change)).marks = [] := by
  rw [perform, edit_eq h]
  rfl

/-- How a request bears on one entity: it leaves no mark and the entity as it was, or one mark,
which turns the entity from idle to carried or back. -/
inductive Turn (uid : EntityUid) : List CarryMark → Bool → Bool → Prop
  | keep (carried : Bool) : Turn uid [] carried carried
  | lift : Turn uid [.lifted uid] false true
  | drop : Turn uid [.dropped uid] true false

/-- A turn to carried is one lift, and a turn to idle is one drop. -/
theorem Turn.count {uid : EntityUid} {marks : List CarryMark} {before later : Bool}
    (h : Turn uid marks before later) :
    marks.count (.dropped uid) + later.toNat = marks.count (.lifted uid) + before.toNat := by
  cases h with
  | keep => rfl
  | lift => simp
  | drop => simp

theorem turn_pickUp (h : s.Sound) (carrier carried uid : EntityUid) :
    Turn uid (CarryMark.on uid (s.perform (.pickUp carrier carried)).marks) (s.isCarried uid)
      ((s.perform (.pickUp carrier carried)).server.isCarried uid) := by
  by_cases hfree : s.carries.Free carrier carried
  · have hafter : (s.perform (.pickUp carrier carried)).server.isCarried uid =
        ((s.carries.link carrier carried).carrier? uid).isSome := by
      rw [perform, pickUp_of_free h hfree]
      rfl
    rw [marks_pickUp_of_free h hfree, hafter, CarryTables.carrier?_link]
    by_cases huid : uid = carried
    · have hbefore : s.isCarried uid = false := by
        rw [isCarried, huid, hfree.2.2]
        rfl
      rw [hbefore, if_pos huid, ← huid, CarryMark.on_lifted]
      exact .lift
    · rw [if_neg huid, CarryMark.on_lifted_of_ne huid]
      exact .keep _
  · obtain ⟨failure, hfail⟩ := pickUp_of_not_free h hfree
    rw [marks_pickUp_of_not_free h hfree, perform, hfail]
    exact .keep _

private theorem not_mem_of_ne {uid other : EntityUid} (h : uid ≠ other) {b : Bool} :
    uid ∉ if b then [other] else [] := by
  cases b with
  | false => exact List.not_mem_nil
  | true => exact fun hmem => h (List.mem_singleton.1 hmem)

private theorem length_if (b : Bool) (uid : EntityUid) :
    (if b then [uid] else []).length = b.toNat := by
  cases b <;> rfl

theorem turn_drop (h : s.Sound) (carried uid : EntityUid) :
    Turn uid (CarryMark.on uid (s.perform (.drop carried)).marks) (s.isCarried uid)
      ((s.perform (.drop carried)).server.isCarried uid) := by
  have hafter : (s.perform (.drop carried)).server.isCarried uid =
      ((s.carries.release carried).tables.carrier? uid).isSome := by
    rw [perform, drop_eq h]
    rfl
  rw [marks_drop h, hafter, CarryTables.carrier?_release h.carries_working]
  by_cases huid : uid = carried
  · rw [if_pos huid, ← huid]
    cases s.isCarried uid with
    | false => exact .keep false
    | true =>
      show Turn uid (CarryMark.on uid [.dropped uid]) true false
      rw [CarryMark.on_dropped]
      exact .drop
  · rw [if_neg huid, CarryMark.on_map_dropped (not_mem_of_ne huid)]
    exact .keep _

theorem turn_despawn (h : s.Sound) (removed uid : EntityUid) :
    Turn uid (CarryMark.on uid (s.perform (.despawn removed)).marks) (s.isCarried uid)
      ((s.perform (.despawn removed)).server.isCarried uid) := by
  have hafter : (s.perform (.despawn removed)).server.isCarried uid =
      ((s.carries.detach removed).carrier? uid).isSome := by
    rw [perform, despawn_eq h]
    rfl
  rw [marks_despawn h, hafter, CarryMark.on_append,
    CarryTables.carrier?_detach h.carries_working h.carries_mirrored]
  by_cases huid : uid = removed
  · -- nobody carries itself, so the second drop is on another entity
    have hother : uid ∉ (s.carries.load? removed).toList := by
      rw [huid, Option.mem_toList]
      exact h.carries_mirrored.load_ne_self removed
    rw [CarryMark.on_map_dropped hother, List.append_nil, if_pos (Or.inl huid), ← huid]
    cases s.isCarried uid with
    | false => exact .keep false
    | true =>
      show Turn uid (CarryMark.on uid [.dropped uid]) true false
      rw [CarryMark.on_dropped]
      exact .drop
  · rw [CarryMark.on_map_dropped (not_mem_of_ne huid), List.nil_append]
    by_cases hcarrier : s.carries.carrier? uid = some removed
    · have hbefore : s.isCarried uid = true := by
        rw [isCarried, hcarrier]
        rfl
      rw [hbefore, if_pos (Or.inr hcarrier), (h.carries_mirrored.load_iff _ _).2 hcarrier]
      show Turn uid (CarryMark.on uid [.dropped uid]) true false
      rw [CarryMark.on_dropped]
      exact .drop
    · have hother : uid ∉ (s.carries.load? removed).toList := by
        rw [Option.mem_toList, h.carries_mirrored.load_iff]
        exact hcarrier
      rw [CarryMark.on_map_dropped hother, if_neg (not_or.2 ⟨huid, hcarrier⟩)]
      exact .keep _

theorem turn_perform (h : s.Sound) (request : Request) (uid : EntityUid) :
    Turn uid (CarryMark.on uid (s.perform request).marks) (s.isCarried uid)
      ((s.perform request).server.isCarried uid) := by
  cases request with
  | spawn prototype =>
    rw [marks_spawn h, perform, spawn_eq h]
    exact .keep _
  | pickUp carrier carried => exact turn_pickUp h carrier carried uid
  | drop carried => exact turn_drop h carried uid
  | despawn removed => exact turn_despawn h removed uid
  | edit other change =>
    rw [marks_edit h, perform, edit_eq h]
    exact .keep _

/-- The mark that would have brought an entity to where it is. -/
def lastMark (uid : EntityUid) : Bool → CarryMark
  | false => .dropped uid
  | true => .lifted uid

/-! ## The marks of a run -/

/-- The marks on an entity take turns, and the first one fits how the entity was. -/
theorem history_takes_turns (h : s.Sound) (requests : List Request) (uid : EntityUid) :
    (lastMark uid (s.isCarried uid) :: CarryMark.on uid (s.history requests)).IsChain (· ≠ ·) := by
  induction requests generalizing s with
  | nil => exact .singleton _
  | cons request rest ih =>
    have hrest := ih (h.perform request)
    have hturn := turn_perform h request uid
    rw [history, CarryMark.on_append]
    generalize CarryMark.on uid (s.perform request).marks = marks at hturn ⊢
    generalize s.isCarried uid = before at hturn ⊢
    generalize (s.perform request).server.isCarried uid = later at hturn hrest
    cases hturn with
    | keep => exact hrest
    | lift => exact .cons_cons (by simp [lastMark]) hrest
    | drop => exact .cons_cons (by simp [lastMark]) hrest

/-- What was dropped, with what is still carried, is what was lifted and what was carried before. -/
theorem count_history (h : s.Sound) (requests : List Request) (uid : EntityUid) :
    (s.history requests).count (.dropped uid) + ((s.after requests).isCarried uid).toNat =
      (s.history requests).count (.lifted uid) + (s.isCarried uid).toNat := by
  induction requests generalizing s with
  | nil => rfl
  | cons request rest ih =>
    have hrest := ih (h.perform request)
    have hstep := (turn_perform h request uid).count
    rw [CarryMark.count_dropped_on, CarryMark.count_lifted_on] at hstep
    rw [history, List.count_append, List.count_append, after_cons]
    omega

/-- As many lifts as a request leaves beyond its drops, as many rows more have the carry tables. -/
theorem countP_marks (h : s.Sound) (request : Request) :
    (s.perform request).marks.countP CarryMark.isDrop +
          (s.perform request).server.carries.carrying.rows.size =
        (s.perform request).marks.countP CarryMark.isLift + s.carries.carrying.rows.size ∧
      (s.perform request).marks.countP CarryMark.isDrop +
          (s.perform request).server.carries.beingCarried.rows.size =
        (s.perform request).marks.countP CarryMark.isLift + s.carries.beingCarried.rows.size := by
  cases request with
  | spawn prototype =>
    rw [marks_spawn h, perform, spawn_eq h]
    exact ⟨rfl, rfl⟩
  | pickUp carrier carried =>
    by_cases hfree : s.carries.Free carrier carried
    · have hsize := CarryTables.size_link hfree
      rw [marks_pickUp_of_free h hfree, perform, pickUp_of_free h hfree]
      show 0 + (s.carries.link carrier carried).carrying.rows.size = 1 + _ ∧
        0 + (s.carries.link carrier carried).beingCarried.rows.size = 1 + _
      omega
    · obtain ⟨failure, hfail⟩ := pickUp_of_not_free h hfree
      rw [marks_pickUp_of_not_free h hfree, perform, hfail]
      exact ⟨rfl, rfl⟩
  | drop carried =>
    have hsize := CarryTables.size_release h.carries_working h.carries_mirrored carried
    rw [marks_drop h, CarryMark.countP_isDrop, CarryMark.countP_isLift, length_if, perform,
      drop_eq h]
    simp only [Effect.map, isCarried]
    omega
  | despawn uid =>
    have hsize := CarryTables.size_detach h.carries_working h.carries_mirrored uid
    have hload : (s.carries.load? uid).toList.length = (s.carries.load? uid).isSome.toNat := by
      cases s.carries.load? uid <;> rfl
    rw [marks_despawn h, ← List.map_append, CarryMark.countP_isDrop, CarryMark.countP_isLift,
      List.length_append, length_if, hload, perform, despawn_eq h]
    simp only [Effect.map, isCarried]
    omega
  | edit uid change =>
    rw [marks_edit h, perform, edit_eq h]
    exact ⟨rfl, rfl⟩

theorem countP_history (h : s.Sound) (requests : List Request) :
    (s.history requests).countP CarryMark.isDrop +
          (s.after requests).carries.carrying.rows.size =
        (s.history requests).countP CarryMark.isLift + s.carries.carrying.rows.size ∧
      (s.history requests).countP CarryMark.isDrop +
          (s.after requests).carries.beingCarried.rows.size =
        (s.history requests).countP CarryMark.isLift + s.carries.beingCarried.rows.size := by
  induction requests generalizing s with
  | nil => exact ⟨rfl, rfl⟩
  | cons request rest ih =>
    have hstep := countP_marks h request
    have hrest := ih (h.perform request)
    rw [history, List.countP_append, List.countP_append, after_cons]
    omega

/-- Over every run the lifts and the drops of an entity take turns, beginning with a lift, and what
was lifted and not dropped is what the tables hold, for each entity and altogether. Asked to drop an
entity, the server raises one drop on it and says so, or raises none. Asked to remove one, it raises
a drop on it if it was carried, then one on what it carried, and no other. -/
theorem drops_of_every_run {tree : FileTree} {config : ServerConfig} {s : Server}
    (h : bootstrap tree config = .ok s) (requests : List Request) :
    let t := s.after requests
    let marks := s.history requests
    (∀ uid, (CarryMark.on uid marks).IsChain (· ≠ ·) ∧
        (CarryMark.on uid marks).head? ≠ some (.dropped uid)) ∧
      (∀ uid, marks.count (.dropped uid) + (t.isCarried uid).toNat = marks.count (.lifted uid)) ∧
      marks.countP CarryMark.isDrop + t.carries.carrying.rows.size =
        marks.countP CarryMark.isLift ∧
      marks.countP CarryMark.isDrop + t.carries.beingCarried.rows.size =
        marks.countP CarryMark.isLift ∧
      (∀ uid, (t.drop uid).answer = .ok (decide ((t.drop uid).dropped = [uid])) ∧
        ((t.drop uid).dropped = [uid] ∨ (t.drop uid).dropped = [])) ∧
      ∀ uid, (t.despawn uid).dropped =
        (if t.isCarried uid then [uid] else []) ++ (t.carries.load? uid).toList := by
  intro t marks
  have hstart := sound_of_bootstrap h
  have hsound : t.Sound := hstart.after requests
  obtain ⟨c, -, rfl⟩ := exists_catalogue_of_bootstrap h
  refine ⟨?_, ?_, ?_, ?_, ?_, ?_⟩
  · intro uid
    have hturns : (.dropped uid :: CarryMark.on uid marks).IsChain (· ≠ ·) :=
      history_takes_turns hstart requests uid
    refine ⟨hturns.tail, fun hhead => ?_⟩
    exact hturns.rel_head? hhead rfl
  · intro uid
    exact count_history hstart requests uid
  · exact (countP_history hstart requests).1
  · exact (countP_history hstart requests).2
  · intro uid
    rw [drop_eq hsound]
    cases t.carries.carrier? uid with
    | none => exact ⟨rfl, Or.inr rfl⟩
    | some carrier => exact ⟨by simp, Or.inl rfl⟩
  · intro uid
    rw [despawn_eq hsound]
    rfl

/-- Two entities that carry each other are both dropped when one of them goes. -/
theorem drops_of_every_run_exchange :
    let requests : List Request := [.pickUp ⟨1⟩ ⟨2⟩, .pickUp ⟨2⟩ ⟨1⟩, .despawn ⟨1⟩, .pickUp ⟨3⟩ ⟨2⟩]
    bootstrap (.empty ["work"]) {} = .ok ofNothing ∧
      ofNothing.history requests =
        [.lifted ⟨2⟩, .lifted ⟨1⟩, .dropped ⟨1⟩, .dropped ⟨2⟩, .lifted ⟨2⟩] ∧
      (ofNothing.history requests).count (.dropped ⟨2⟩) +
          ((ofNothing.after requests).isCarried ⟨2⟩).toNat =
        (ofNothing.history requests).count (.lifted ⟨2⟩) :=
  ⟨bootstrap_ofNothing, by decide, (drops_of_every_run bootstrap_ofNothing _).2.1 ⟨2⟩⟩

end Server

end Station
