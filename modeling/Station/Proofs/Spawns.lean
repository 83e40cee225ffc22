import Station.Proofs.Templates

/-!
# The ids that a run gives out

Ids of entities count up from one. As long as the counter does not overflow, the ids that a run of
requests gives out (`Server.spawns`) increase, so none is given out again. The felinid table has a
row for exactly those of them that were spawned for a prototype with a component and not despawned
since (`Server.Stands`), because no other request adds a row or takes one away
(`contains_perform`).

If requests name no entity that was not spawned before (`Server.NamesOnlySpawned`), then no table
mentions an id that was not given out (`unmentioned_of_notMem_spawns`). A new id is such an id.
-/

namespace Station

/-- Whether a request makes an entity. -/
def Request.isSpawn : Request → Bool
  | .spawn _ => true
  | .pickUp .. | .drop _ | .despawn _ | .edit .. => false

namespace Server

/-- The id that a request gives out, if it makes an entity. -/
def spawned? (s : Server) : Request → Option EntityUid
  | .spawn prototype => (s.spawn prototype).answer.toOption
  | .pickUp .. | .drop _ | .despawn _ | .edit .. => none

/-- The ids that a run of requests gives out, in order. -/
def spawns (s : Server) : List Request → List EntityUid
  | [] => []
  | request :: rest => (s.spawned? request).toList ++ (s.perform request).server.spawns rest

/-- An entity was spawned in a run for a prototype with a felinid component, and was not despawned
since. -/
def Stands (s : Server) (requests : List Request) (uid : EntityUid) : Prop :=
  ∃ before prototype later, requests = before ++ .spawn prototype :: later ∧
    ((s.after before).spawn prototype).answer = .ok uid ∧
    (s.templates.get? prototype).isSome ∧ .despawn uid ∉ later

/-- Every entity that the run picks up, lets pick up, or stores in a felinid component was spawned
in the run before. -/
def NamesOnlySpawned (s : Server) (requests : List Request) : Prop :=
  ∀ before request later, requests = before ++ request :: later → request.isSpawn = false →
    ∀ uid, (s.after before).Names uid request → uid ∈ s.spawns before

/-- No carry has an entity for a part, and no felinid component refers to it. -/
structure Unreferred (s : Server) (uid : EntityUid) : Prop where
  not_carries : ∀ other, ¬ s.carries.Carries uid other
  not_load : ∀ other, ¬ s.carries.Carries other uid
  not_carried : ∀ other, ¬ s.carries.IsCarriedBy uid other
  not_carrier : ∀ other, ¬ s.carries.IsCarriedBy other uid
  not_refersTo : ∀ other, ∀ felinid ∈ s.felinids.rows.get? other, ¬ felinid.RefersTo uid

variable {s : Server} {uid : EntityUid} {requests : List Request} {request : Request}

/-! ## One more request -/

theorem after_concat (s : Server) (requests : List Request) (request : Request) :
    s.after (requests ++ [request]) = ((s.after requests).perform request).server := by
  rw [after, List.foldl_concat]
  rfl

theorem spawns_concat (s : Server) (requests : List Request) (request : Request) :
    s.spawns (requests ++ [request]) =
      s.spawns requests ++ ((s.after requests).spawned? request).toList := by
  induction requests generalizing s with
  | nil => exact List.append_nil _
  | cons first rest ih =>
    rw [List.cons_append, spawns, spawns, ih, List.append_assoc]
    rfl

/-- A request of a longer run is its last one or one of the run before. -/
theorem eq_or_exists_of_concat_eq {before later : List Request} {other : Request}
    (h : requests ++ [request] = before ++ other :: later) :
    before = requests ∧ other = request ∧ later = [] ∨
      ∃ init, later = init ++ [request] ∧ requests = before ++ other :: init := by
  rcases List.eq_nil_or_concat later with rfl | ⟨init, last, rfl⟩
  · obtain ⟨hbefore, hother⟩ := List.append_inj' h rfl
    exact Or.inl ⟨hbefore.symm, (List.singleton_inj.1 hother).symm, rfl⟩
  · rw [List.concat_eq_append, ← List.cons_append, ← List.append_assoc] at h
    obtain ⟨hrequests, hlast⟩ := List.append_inj' h rfl
    obtain rfl := List.singleton_inj.1 hlast
    exact Or.inr ⟨init, List.concat_eq_append, hrequests⟩

/-- What stands after one more request was spawned by it, or stood before and was not despawned. -/
theorem stands_concat (s : Server) (requests : List Request) (request : Request) :
    s.Stands (requests ++ [request]) uid ↔
      (∃ prototype, request = .spawn prototype ∧
        ((s.after requests).spawn prototype).answer = .ok uid ∧
        (s.templates.get? prototype).isSome) ∨
      s.Stands requests uid ∧ request ≠ .despawn uid := by
  constructor
  · rintro ⟨before, prototype, later, hrun, hanswer, htemplate, hlater⟩
    rcases eq_or_exists_of_concat_eq hrun with ⟨rfl, rfl, -⟩ | ⟨init, rfl, hrequests⟩
    · exact Or.inl ⟨prototype, rfl, hanswer, htemplate⟩
    · rw [List.mem_append, not_or, List.mem_singleton] at hlater
      exact Or.inr ⟨⟨before, prototype, init, hrequests, hanswer, htemplate, hlater.1⟩,
        Ne.symm hlater.2⟩
  · rintro (⟨prototype, rfl, hanswer, htemplate⟩ | ⟨⟨before, prototype, later, rfl, hanswer,
      htemplate, hlater⟩, hrequest⟩)
    · exact ⟨requests, prototype, [], rfl, hanswer, htemplate, List.not_mem_nil⟩
    · refine ⟨before, prototype, later ++ [request], ?_, hanswer, htemplate, ?_⟩
      · rw [List.append_assoc, List.cons_append]
      · rw [List.mem_append, List.mem_singleton, not_or]
        exact ⟨hlater, Ne.symm hrequest⟩

/-- One more request may name what the run before it has spawned. -/
theorem NamesOnlySpawned.concat (h : s.NamesOnlySpawned requests)
    (hrequest : request.isSpawn = false →
      ∀ uid, (s.after requests).Names uid request → uid ∈ s.spawns requests) :
    s.NamesOnlySpawned (requests ++ [request]) := by
  intro before other later hrun
  rcases eq_or_exists_of_concat_eq hrun with ⟨rfl, rfl, -⟩ | ⟨init, -, hrequests⟩
  · exact hrequest
  · exact h before other init hrequests

/-- The start of a run names only what was spawned before if all of the run does. -/
theorem NamesOnlySpawned.of_append {more : List Request}
    (h : s.NamesOnlySpawned (requests ++ more)) : s.NamesOnlySpawned requests := by
  rintro before request later rfl
  apply h before request (later ++ more)
  rw [List.append_assoc, List.cons_append]

/-! ## Ids -/

/-- The id of the entity that a new server makes after `k` others. -/
def nthUid (k : Nat) : EntityUid := ⟨UInt64.ofNat (k + 1)⟩

theorem next_nthUid (k : Nat) : (nthUid k).next = nthUid (k + 1) := by
  rw [nthUid, nthUid, EntityUid.next, UInt64.ofNat_add (k + 1) 1]
  rfl

theorem nthUid_lt {k m : Nat} (hkm : k < m) (hm : m < 2 ^ 64 - 1) :
    (nthUid k).raw < (nthUid m).raw := by
  rw [UInt64.lt_iff_toNat_lt, nthUid, nthUid, UInt64.toNat_ofNat_of_lt', UInt64.toNat_ofNat_of_lt']
  · omega
  · show m + 1 < 2 ^ 64
    omega
  · show k + 1 < 2 ^ 64
    omega

/-- A request that makes an entity gives out the next id, and no other one moves the counter. -/
theorem spawned?_eq (h : s.Sound) (request : Request) :
    s.spawned? request = (if request.isSpawn then some s.nextUid else none) ∧
      (s.perform request).server.nextUid =
        if request.isSpawn then s.nextUid.next else s.nextUid := by
  cases request with
  | spawn prototype =>
    have hspawn := spawn_eq h prototype
    constructor
    · rw [spawned?, hspawn]
      rfl
    · rw [perform, hspawn]
      rfl
  | pickUp carrier carried =>
    refine ⟨rfl, ?_⟩
    rw [perform]
    by_cases hfree : s.carries.Free carrier carried
    · rw [pickUp_of_free h hfree]
      rfl
    · obtain ⟨failure, hfail⟩ := pickUp_of_not_free h hfree
      rw [hfail]
      rfl
  | drop carried =>
    refine ⟨rfl, ?_⟩
    rw [perform, drop_eq h]
    rfl
  | despawn removed =>
    refine ⟨rfl, ?_⟩
    rw [perform, despawn_eq h]
    rfl
  | edit changed change =>
    refine ⟨rfl, ?_⟩
    rw [perform, edit_eq h]
    rfl

/-- A run gives out the ids that follow each other, one for each entity that it makes. -/
theorem spawns_eq (h : s.Sound) (hfirst : s.nextUid = nthUid 0) (requests : List Request) :
    s.spawns requests = (List.range (requests.countP Request.isSpawn)).map nthUid ∧
      (s.after requests).nextUid = nthUid (requests.countP Request.isSpawn) := by
  induction requests using List.reverseRecOn with
  | nil => exact ⟨rfl, hfirst⟩
  | append_singleton requests request ih =>
    obtain ⟨hspawns, hnext⟩ := ih
    obtain ⟨hspawned, hmoved⟩ := spawned?_eq (h.after requests) request
    rw [spawns_concat, after_concat, hspawns, hspawned, hmoved, hnext, List.countP_append]
    by_cases hspawn : request.isSpawn = true
    · have hone : [request].countP Request.isSpawn = 1 := by simp [hspawn]
      rw [if_pos hspawn, if_pos hspawn, hone, List.range_succ, List.map_append, next_nthUid]
      exact ⟨rfl, rfl⟩
    · have hnone : [request].countP Request.isSpawn = 0 := by simp [hspawn]
      rw [if_neg hspawn, if_neg hspawn, hnone]
      exact ⟨List.append_nil _, rfl⟩

/-- Ids that do not overflow increase. -/
theorem pairwise_nthUid {n : Nat} (hn : n < 2 ^ 64 - 1) :
    ((List.range n).map nthUid).Pairwise fun a b => a.raw < b.raw := by
  rw [List.pairwise_map]
  refine List.pairwise_lt_range.imp_of_mem fun {k m} _ hm hkm => ?_
  apply nthUid_lt hkm
  have hlt := List.mem_range.1 hm
  omega

/-- The id that comes next is none of them. -/
theorem nthUid_notMem {n : Nat} (hn : n < 2 ^ 64 - 1) : nthUid n ∉ (List.range n).map nthUid := by
  intro hmem
  obtain ⟨k, hk, heq⟩ := List.mem_map.1 hmem
  have hlt := nthUid_lt (List.mem_range.1 hk) hn
  rw [heq] at hlt
  exact UInt64.lt_irrefl _ hlt

/-! ## Felinid rows -/

/-- A request that makes an entity may add its row, and one that removes an entity takes its row
away. -/
theorem contains_perform (h : s.Sound) (request : Request) (uid : EntityUid) :
    (s.perform request).server.felinids.rows.contains uid = true ↔
      (∃ prototype, request = .spawn prototype ∧ (s.spawn prototype).answer = .ok uid ∧
        (s.templates.get? prototype).isSome) ∨
      s.felinids.rows.contains uid = true ∧ request ≠ .despawn uid := by
  cases request with
  | spawn prototype =>
    have hanswer : (s.spawn prototype).answer = .ok uid ↔ uid = s.nextUid := by
      rw [spawn_eq h]
      exact ⟨fun heq => (Except.ok.inj heq).symm, fun heq => by rw [heq]⟩
    have hserver : (s.perform (.spawn prototype)).server = (s.spawn prototype).server := rfl
    rw [hserver]
    cases htemplate : s.templates.get? prototype with
    | none => simp [spawn_eq h, htemplate]
    | some template =>
      have hrows : (s.spawn prototype).server.felinids.rows =
          s.felinids.rows.insert s.nextUid template := by
        rw [spawn_eq h, htemplate]
      rw [hrows, Table.contains_insert]
      simp [hanswer, htemplate]
  | pickUp carrier carried =>
    rw [perform]
    by_cases hfree : s.carries.Free carrier carried
    · simp [pickUp_of_free h hfree, Effect.map]
    · obtain ⟨failure, hfail⟩ := pickUp_of_not_free h hfree
      simp [hfail, Effect.map]
  | drop carried => simp [perform, drop_eq h, Effect.map]
  | despawn removed =>
    rw [perform, despawn_eq h]
    have hrow := get?_forgetting s.felinids removed uid
    by_cases hremoved : uid = removed
    · subst hremoved
      simp [Effect.map, Table.contains, hrow]
    · simp [Effect.map, Table.contains, hrow, hremoved, Ne.symm hremoved]
  | edit changed change =>
    rw [perform, edit_eq h]
    simp only [Effect.map, Table.contains, Table.get?_modify]
    split <;> simp

/-- The felinid rows of a run are those of the entities that stand. -/
theorem contains_after_iff (h : s.Sound) (hempty : s.felinids.rows = .empty)
    (requests : List Request) (uid : EntityUid) :
    (s.after requests).felinids.rows.contains uid = true ↔ s.Stands requests uid := by
  induction requests using List.reverseRecOn with
  | nil =>
    have hnone : s.felinids.rows.contains uid = false := by rw [hempty]; rfl
    have hnobody : ¬ s.Stands [] uid := by
      rintro ⟨before, prototype, later, hrun, -⟩
      simp at hrun
    show s.felinids.rows.contains uid = true ↔ _
    simp [hnone, hnobody]
  | append_singleton requests request ih =>
    rw [after_concat, contains_perform (h.after requests), stands_concat, ih,
      templates_after h requests]

/-! ## Mentions -/

/-- As long as a run names only what it has spawned, no table mentions anything else. -/
theorem unmentioned_of_notMem_spawns (h : s.Sound) (hbare : s.TemplatesBare)
    (hempty : ∀ uid, s.Unmentioned uid) (honly : s.NamesOnlySpawned requests)
    (huid : uid ∉ s.spawns requests) : (s.after requests).Unmentioned uid := by
  induction requests using List.reverseRecOn with
  | nil => exact hempty uid
  | append_singleton requests request ih =>
    rw [spawns_concat, List.mem_append, not_or] at huid
    obtain ⟨hbefore, hnew⟩ := huid
    rw [after_concat]
    apply (ih honly.of_append hbefore).perform (h.after requests) (hbare.after h requests)
    intro hnames
    cases hspawn : request.isSpawn with
    | false => exact hbefore (honly requests request [] rfl hspawn uid hnames)
    | true =>
      cases request with
      | spawn prototype =>
        have hanswer : ((s.after requests).spawn prototype).answer = .ok uid := hnames
        apply hnew
        rw [spawned?, hanswer]
        exact List.mem_singleton_self uid
      | pickUp | drop | despawn | edit => cases hspawn

/-- A new server mentions nobody. -/
theorem unmentioned_ofCatalogue (config : ServerConfig) (c : Catalogue) (uid : EntityUid) :
    (ofCatalogue config c).Unmentioned uid :=
  .of_views (sound_ofCatalogue config c) rfl rfl rfl fun _ _ h => by cases h

/-- Requests leave the minds alone. -/
theorem minds_after (h : s.Sound) (requests : List Request) :
    (s.after requests).minds = s.minds := by
  induction requests generalizing s with
  | nil => rfl
  | cons request rest ih =>
    obtain ⟨felinids, carries, nextUid, hframe⟩ := perform_frame h request
    rw [after_cons, ih (h.perform request), hframe]

/-- What an unmentioned entity is after it was given out: the key of a row of its own at most. -/
theorem unreferred_spawn (h : s.Sound) (hbare : s.TemplatesBare) (prototype : PrototypeId)
    (hu : s.Unmentioned s.nextUid) :
    (s.spawn prototype).server.Unreferred s.nextUid ∧
      (s.spawn prototype).server.felinids.rows.get? s.nextUid = s.templates.get? prototype := by
  rw [spawn_eq h]
  cases htemplate : s.templates.get? prototype with
  | none =>
    exact ⟨⟨hu.not_carries, hu.not_load, hu.not_carried, hu.not_carrier, hu.not_refersTo⟩,
      hu.not_felinid⟩
  | some template =>
    refine ⟨⟨hu.not_carries, hu.not_load, hu.not_carried, hu.not_carrier, ?_⟩, ?_⟩
    · intro other felinid hfelinid
      have hrow : (s.felinids.rows.insert s.nextUid template).get? other = some felinid := hfelinid
      rw [Table.get?_insert] at hrow
      split at hrow
      · rw [← Option.some.inj hrow]
        exact hbare prototype template htemplate s.nextUid
      · exact hu.not_refersTo other felinid hrow
    · show (s.felinids.rows.insert s.nextUid template).get? s.nextUid = some template
      rw [Table.get?_insert, if_pos rfl]

/-! ## Every run -/

/-- The keys of a table of components increase. -/
theorem pairwise_keys_raw {α : Type} (rows : Table EntityUid α) :
    rows.keys.Pairwise fun a b => a.raw < b.raw :=
  rows.keys_ascending.imp EntityUid.compare_eq_lt_iff.1

/-- In every run that makes fewer than `2 ^ 64 - 1` entities, the ids that it gives out increase.
The entities with a felinid component are listed by ascending id: those that were spawned for a
prototype with a component and were not despawned since. Carries leave the components alone. If
nothing was named that had not been spawned, then the next id that is given out is mentioned
nowhere, and after that only as the key of a row with the component of its prototype. -/
theorem ids_of_every_run {tree : FileTree} {config : ServerConfig} {s : Server}
    (h : bootstrap tree config = .ok s) (requests : List Request)
    (hfew : requests.countP Request.isSpawn < 2 ^ 64 - 1) :
    let t := s.after requests
    (s.spawns requests).length = requests.countP Request.isSpawn ∧
      ((s.spawns requests).Pairwise fun a b => a.raw < b.raw) ∧
      (∃ ids, t.felinids.entities = .ok ids ∧ (ids.Pairwise fun a b => a.raw < b.raw) ∧
        ∀ uid, uid ∈ ids ↔ s.Stands requests uid) ∧
      (∀ carrier carried, (t.pickUp carrier carried).server.felinids = t.felinids) ∧
      (∀ carried, (t.drop carried).server.felinids = t.felinids) ∧
      (s.NamesOnlySpawned requests → ∀ prototype, ∃ uid, (t.spawn prototype).answer = .ok uid ∧
        uid ∉ s.spawns requests ∧ t.Unmentioned uid ∧
        let u := (t.spawn prototype).server
        u.Unreferred uid ∧ u.felinids.rows.get? uid = s.templates.get? prototype ∧
          u.minds = {}) := by
  intro t
  obtain ⟨c, -, rfl⟩ := exists_catalogue_of_bootstrap h
  have hstart := sound_ofCatalogue config c
  have hsound : t.Sound := hstart.after requests
  obtain ⟨hspawns, hnext⟩ := spawns_eq hstart rfl requests
  refine ⟨?_, ?_, ⟨t.felinids.rows.keys, ?_, pairwise_keys_raw _, fun uid => ?_⟩, ?_, ?_, ?_⟩
  · rw [hspawns, List.length_map, List.length_range]
  · rw [hspawns]
    exact pairwise_nthUid hfew
  · exact ComponentTable.entities_of_working hsound.felinids_working
  · rw [Table.mem_keys_iff]
    exact contains_after_iff hstart rfl requests uid
  · intro carrier carried
    by_cases hfree : t.carries.Free carrier carried
    · rw [pickUp_of_free hsound hfree]
    · obtain ⟨failure, hfail⟩ := pickUp_of_not_free hsound hfree
      rw [hfail]
  · intro carried
    rw [drop_eq hsound]
  · intro honly prototype
    have hbare := templatesBare_ofCatalogue config c
    have hnew : t.nextUid ∉ (ofCatalogue config c).spawns requests := by
      rw [hspawns, hnext]
      exact nthUid_notMem hfew
    have hunmentioned : t.Unmentioned t.nextUid :=
      unmentioned_of_notMem_spawns hstart hbare (unmentioned_ofCatalogue config c) honly hnew
    obtain ⟨hunreferred, hrow⟩ :=
      unreferred_spawn hsound (hbare.after hstart requests) prototype hunmentioned
    refine ⟨t.nextUid, by rw [spawn_eq hsound], hnew, hunmentioned, hunreferred, ?_, ?_⟩
    · rw [hrow, templates_after hstart requests]
    · have hminds : (t.perform (.spawn prototype)).server.minds = t.minds :=
        minds_after hsound [.spawn prototype]
      exact hminds.trans (minds_after hstart requests)

/-- Two felinids are spawned, one carries the other, and the first one goes. The next one is new. -/
theorem ids_of_every_run_twins :
    bootstrap twins { prototypesDir := ⟨"p"⟩ } = .ok twinServer ∧
      let run : List Request :=
        [.spawn "E", .spawn "nobody", .spawn "E", .pickUp ⟨1⟩ ⟨3⟩, .despawn ⟨1⟩]
      let t := twinServer.after run
      run.countP Request.isSpawn < 2 ^ 64 - 1 ∧ twinServer.NamesOnlySpawned run ∧
        twinServer.spawns run = [⟨1⟩, ⟨2⟩, ⟨3⟩] ∧ t.felinids.entities = .ok [⟨3⟩] ∧
        twinServer.Stands run ⟨3⟩ ∧ (t.spawn "E").answer = .ok ⟨4⟩ ∧ t.Unmentioned ⟨4⟩ := by
  refine ⟨bootstrap_twins, ?_⟩
  intro run t
  have hfew : run.countP Request.isSpawn < 2 ^ 64 - 1 := by decide
  have hspawned : twinServer.NamesOnlySpawned [.spawn "E", .spawn "nobody", .spawn "E"] := by
    intro before request later hrun hspawn
    have hmem : request ∈ before ++ request :: later := by simp
    rw [← hrun] at hmem
    simp only [List.mem_cons, List.not_mem_nil, or_false] at hmem
    rcases hmem with rfl | rfl | rfl <;> cases hspawn
  have hpicked : twinServer.NamesOnlySpawned
      ([.spawn "E", .spawn "nobody", .spawn "E"] ++ [.pickUp ⟨1⟩ ⟨3⟩]) := by
    apply hspawned.concat
    rintro - uid (rfl | rfl) <;> decide
  have honly : twinServer.NamesOnlySpawned run := by
    apply hpicked.concat
    rintro - uid ⟨⟩
  obtain ⟨-, -, ⟨ids, hids, -, hstands⟩, -, -, hfresh⟩ := ids_of_every_run bootstrap_twins run hfew
  have hentities : t.felinids.entities = .ok [⟨3⟩] := by decide
  have hthird : twinServer.Stands run ⟨3⟩ := by
    obtain rfl : ids = [⟨3⟩] := Except.ok.inj (hids.symm.trans hentities)
    exact (hstands ⟨3⟩).1 (List.mem_singleton_self _)
  obtain ⟨uid, hanswer, -, hunmentioned, -⟩ := hfresh honly "E"
  have hfourth : (t.spawn "E").answer = .ok ⟨4⟩ := by decide
  obtain rfl : uid = ⟨4⟩ := Except.ok.inj (hanswer.symm.trans hfourth)
  exact ⟨hfew, honly, by decide, hentities, hthird, hfourth, hunmentioned⟩

end Server

end Station
