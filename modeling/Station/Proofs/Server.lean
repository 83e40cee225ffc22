import Station.Proofs.Carry
import Station.Server

/-!
# Runs of a server

`Request` is what a server can be asked to do with its entities, in any order and with any ids.
`Server.perform` does one request and `Server.after` a whole run of them. Runs are of requests that
return: a component is changed by a function, which has a result for every component. A change that
breaks off in the middle is no request, but a call on the table (`ComponentTable.breakOff`), and
nothing is said here of a server whose tables are broken.

`Server.Sound` is what holds throughout: no table is broken, and the carry tables mirror each other.
It holds of a server that was just built (`sound_of_bootstrap`), each request keeps it
(`Sound.perform`), and so does each run (`Sound.after`). Under it every operation on entities has
one equation that says what it answers, what it leaves and what it drops (`spawn_eq`, `drop_eq`,
`despawn_eq`, …), and none of them can fail but `pickUp`.
-/

namespace Station

/-- What a server can be asked to do with entities, by requests that return. -/
inductive Request where
  /-- Make an entity. -/
  | spawn (prototype : PrototypeId)
  /-- Let an entity pick up another one. -/
  | pickUp (carrier carried : EntityUid)
  /-- End the carry of an entity. -/
  | drop (carried : EntityUid)
  /-- Remove an entity. -/
  | despawn (uid : EntityUid)
  /-- Change the felinid component of an entity in place. The change returns. -/
  | edit (uid : EntityUid) (change : Felinid → Felinid)

/-- The same effect with another answer. -/
def Effect.map {α β : Type} (f : α → β) (e : Effect α) : Effect β :=
  ⟨e.answer.map f, e.server, e.dropped⟩

namespace Server

/-- Changes the felinid component of an entity in place, if it has one. The change returns a
component for every component, so it does not break the table. -/
def edit (s : Server) (uid : EntityUid) (change : Felinid → Felinid) : Effect Unit :=
  match s.felinids.update uid fun felinid => ((), change felinid) with
  | .ok (_, felinids) => ⟨.ok (), { s with felinids }, []⟩
  | .error error => ⟨.error (.repository error), s, []⟩

/-- Performs a request. The answer names the entity that was picked up, if one was. -/
def perform (s : Server) : Request → Effect (Option EntityUid)
  | .spawn prototype => (s.spawn prototype).map fun _ => none
  | .pickUp carrier carried => (s.pickUp carrier carried).map fun _ => some carried
  | .drop carried => (s.drop carried).map fun _ => none
  | .despawn uid => (s.despawn uid).map fun _ => none
  | .edit uid change => (s.edit uid change).map fun _ => none

/-- The server after a run of requests. -/
def after (s : Server) (requests : List Request) : Server :=
  requests.foldl (fun s request => (s.perform request).server) s

theorem after_cons (s : Server) (request : Request) (rest : List Request) :
    s.after (request :: rest) = (s.perform request).server.after rest := rfl

/-- No table is broken, and the carry tables mirror each other. -/
structure Sound (s : Server) : Prop where
  carries_working : s.carries.Working
  carries_mirrored : s.carries.Mirrored
  felinids_working : s.felinids.broken = false

/-! ## A new server -/

/-- A server is built from some catalogue. -/
theorem exists_catalogue_of_bootstrap {tree : FileTree} {config : ServerConfig} {s : Server}
    (h : bootstrap tree config = .ok s) :
    ∃ c, ({} : Catalogue).addDirectory tree config.prototypesDir = .ok c ∧
      s = ofCatalogue config c := by
  unfold bootstrap at h
  split at h
  · rename_i c hc
    exact ⟨c, hc, (Except.ok.inj h).symm⟩
  · cases h

theorem sound_ofCatalogue (config : ServerConfig) (c : Catalogue) :
    (ofCatalogue config c).Sound where
  carries_working := ⟨rfl, rfl⟩
  carries_mirrored := by
    constructor
    · intro a b
      constructor <;> intro h <;> cases h
    · intro uid h
      cases h
  felinids_working := rfl

theorem sound_of_bootstrap {tree : FileTree} {config : ServerConfig} {s : Server}
    (h : bootstrap tree config = .ok s) : s.Sound := by
  obtain ⟨c, -, rfl⟩ := exists_catalogue_of_bootstrap h
  exact sound_ofCatalogue config c

/-! ## What each operation comes to -/

variable {s : Server}

/-- A new entity gets the next id and the component of its prototype. -/
theorem spawn_eq (h : s.Sound) (prototype : PrototypeId) :
    s.spawn prototype =
      ⟨.ok s.nextUid,
        { s with
          nextUid := s.nextUid.next
          felinids :=
            match s.templates.get? prototype with
            | none => s.felinids
            | some template =>
              { s.felinids with rows := s.felinids.rows.insert s.nextUid template } }, []⟩ := by
  cases htemplate : s.templates.get? prototype with
  | none => simp only [spawn, htemplate]
  | some template =>
    simp only [spawn, htemplate, ComponentTable.insert_of_working h.felinids_working]

theorem pickUp_of_free (h : s.Sound) {carrier carried : EntityUid}
    (hfree : s.carries.Free carrier carried) :
    s.pickUp carrier carried =
      ⟨.ok (), { s with carries := s.carries.link carrier carried }, []⟩ := by
  simp only [pickUp, CarryTables.begin?_of_free h.carries_working hfree]

theorem pickUp_of_not_free (h : s.Sound) {carrier carried : EntityUid}
    (hfree : ¬ s.carries.Free carrier carried) :
    ∃ failure, s.pickUp carrier carried = ⟨.error failure, s, []⟩ := by
  obtain ⟨error, hfail⟩ := CarryTables.begin?_of_not_free h.carries_working hfree
  exact ⟨.carry error, by simp only [pickUp, hfail]⟩

/-- An entity is picked up exactly if its carry may start. -/
theorem pickUp_answer_eq_ok_iff (h : s.Sound) {carrier carried : EntityUid} :
    (s.pickUp carrier carried).answer = .ok () ↔ s.carries.Free carrier carried := by
  by_cases hfree : s.carries.Free carrier carried
  · rw [pickUp_of_free h hfree]
    exact ⟨fun _ => hfree, fun _ => rfl⟩
  · obtain ⟨failure, hfail⟩ := pickUp_of_not_free h hfree
    rw [hfail]
    constructor
    · intro hok
      cases hok
    · intro hok
      exact absurd hok hfree

theorem drop_eq (h : s.Sound) (carried : EntityUid) :
    s.drop carried =
      ⟨.ok (s.carries.carrier? carried).isSome,
        { s with carries := (s.carries.release carried).tables },
        if (s.carries.carrier? carried).isSome then [carried] else []⟩ := by
  simp only [drop, CarryTables.release_answer h.carries_working,
    CarryTables.release_drops h.carries_working]

theorem dropLoad_eq (h : s.Sound) (carrier : EntityUid) :
    s.dropLoad carrier =
      ⟨.ok (s.carries.load? carrier).isSome, { s with carries := s.carries.unload carrier },
        (s.carries.load? carrier).toList⟩ := by
  have hget := ComponentTable.get_of_working h.carries_working.carrying carrier
  cases hload : s.carries.load? carrier with
  | none =>
    rw [CarryTables.load?_eq_none_iff.1 hload] at hget
    simp only [dropLoad, hget, CarryTables.unload, hload]
    rfl
  | some carried =>
    have hcarrier := (h.carries_mirrored.load_iff _ _).1 hload
    rw [CarryTables.load?_eq_some_iff.1 hload] at hget
    simp only [dropLoad, hget, drop_eq h, CarryTables.unload, hload, hcarrier]
    rfl

/-! ## Forgetting an entity -/

/-- The felinid components after an entity is forgotten: its own is gone, and so is every reference
that another one holds to it. -/
def forgetting (felinids : ComponentTable Felinid) (uid : EntityUid) : ComponentTable Felinid :=
  { felinids with
    rows := (felinids.rows.erase uid).mapValues fun _ felinid => felinid.forget uid }

theorem forget_forget (uid : EntityUid) (f : Felinid) :
    (f.forget uid).forget uid = f.forget uid := by
  have hwithout : ∀ reference, Felinid.without uid (Felinid.without uid reference) =
      Felinid.without uid reference := by
    intro reference
    by_cases href : reference = some uid
    · simp [Felinid.without, href]
    · simp [Felinid.without, href]
  simp only [Felinid.forget, hwithout]

/-- The loop over other entities rewrites the components of those entities and no others. -/
theorem forgetAll_eq (uid : EntityUid) {felinids : ComponentTable Felinid}
    (h : felinids.broken = false) (others : List EntityUid) :
    forgetAll uid felinids others =
      .ok { felinids with
        rows := felinids.rows.mapValues fun key felinid =>
          if key ∈ others then felinid.forget uid else felinid } := by
  induction others generalizing felinids with
  | nil =>
    have hrows : (felinids.rows.mapValues fun _ felinid => felinid) = felinids.rows := by
      refine Table.ext_get? fun key => ?_
      rw [Table.get?_mapValues]
      exact Option.map_id'
    simp only [forgetAll, List.foldlM_nil, List.not_mem_nil, if_false, hrows]
    rfl
  | cons other rest ih =>
    have hstep : forgetAll uid felinids (other :: rest) =
        forgetAll uid
          { felinids with rows := felinids.rows.modify other fun felinid => felinid.forget uid }
          rest := by
      simp only [forgetAll, List.foldlM_cons, ComponentTable.update_of_working h]
      rfl
    have hrest := @ih
      { felinids with rows := felinids.rows.modify other fun felinid => felinid.forget uid } h
    rw [hstep, hrest]
    -- an entity that the list names twice is forgotten twice, which is once
    have hrows : ∀ rows : Table EntityUid Felinid,
        ((rows.modify other fun felinid => felinid.forget uid).mapValues fun key felinid =>
          if key ∈ rest then felinid.forget uid else felinid) =
        rows.mapValues fun key felinid =>
          if key ∈ other :: rest then felinid.forget uid else felinid := by
      intro rows
      refine Table.ext_get? fun key => ?_
      rw [Table.get?_mapValues, Table.get?_mapValues, Table.get?_modify]
      by_cases hkey : key = other
      · rw [if_pos hkey, Option.map_map]
        refine congrArg (fun change => (rows.get? key).map change) ?_
        funext felinid
        simp only [Function.comp_apply, List.mem_cons, hkey, true_or, if_true, forget_forget,
          ite_self]
      · rw [if_neg hkey]
        simp only [List.mem_cons, hkey, false_or]
    simp only [hrows]

theorem removeFelinid_eq (uid : EntityUid) {felinids : ComponentTable Felinid}
    (h : felinids.broken = false) : removeFelinid uid felinids = .ok (forgetting felinids uid) := by
  have hstep : removeFelinid uid felinids =
      forgetAll uid { felinids with rows := felinids.rows.erase uid }
        (felinids.rows.erase uid).keys := by
    have hrest : ({ felinids with rows := felinids.rows.erase uid } :
        ComponentTable Felinid).entities = _ := ComponentTable.entities_of_working h
    simp only [removeFelinid, ComponentTable.remove_of_working h, bind, Except.bind, hrest]
  have hloop := @forgetAll_eq uid { felinids with rows := felinids.rows.erase uid } h
  rw [hstep, hloop, forgetting]
  -- the loop runs over every key that is left
  have hrows : ∀ rows : Table EntityUid Felinid,
      (rows.mapValues fun key felinid => if key ∈ rows.keys then felinid.forget uid else felinid) =
        rows.mapValues fun _ felinid => felinid.forget uid := by
    intro rows
    refine Table.ext_get? fun key => ?_
    rw [Table.get?_mapValues, Table.get?_mapValues]
    cases hrow : rows.get? key with
    | none => rfl
    | some felinid =>
      have hkey : key ∈ rows.keys := (rows.mem_keys_iff key).2 (by rw [hrow]; rfl)
      simp only [Option.map_some, if_pos hkey]
  simp only [hrows]

theorem eraseFelinid_eq (h : s.Sound) (uid : EntityUid) :
    s.eraseFelinid uid = ⟨.ok (), { s with felinids := forgetting s.felinids uid }, []⟩ := by
  simp only [eraseFelinid, removeFelinid_eq uid h.felinids_working]

/-- Despawning drops the entity, then what it carries, and then forgets it. -/
theorem despawn_eq (h : s.Sound) (uid : EntityUid) :
    s.despawn uid =
      ⟨.ok (),
        { s with
          carries := s.carries.detach uid
          felinids := forgetting s.felinids uid },
        (if (s.carries.carrier? uid).isSome then [uid] else []) ++
          (s.carries.load? uid).toList⟩ := by
  have hdropped : ({ s with carries := (s.carries.release uid).tables } : Server).Sound :=
    ⟨h.carries_working.release uid, h.carries_mirrored.release h.carries_working uid,
      h.felinids_working⟩
  have hunloaded : ({ s with carries := s.carries.detach uid } : Server).Sound :=
    ⟨h.carries_working.detach uid, h.carries_mirrored.detach h.carries_working uid,
      h.felinids_working⟩
  have hload := CarryTables.load?_release_self h.carries_working h.carries_mirrored uid
  rw [despawn, drop_eq h]
  simp only [Effect.andThen, dropLoad_eq hdropped, hload]
  have herase := eraseFelinid_eq hunloaded uid
  simp only [CarryTables.detach] at herase ⊢
  simp only [herase, List.append_nil]

theorem edit_eq (h : s.Sound) (uid : EntityUid) (change : Felinid → Felinid) :
    s.edit uid change =
      ⟨.ok (), { s with
        felinids := { s.felinids with rows := s.felinids.rows.modify uid change } }, []⟩ := by
  simp only [edit, ComponentTable.update_of_working h.felinids_working]

/-- A request changes nothing but entities. -/
theorem perform_frame (h : s.Sound) (request : Request) :
    ∃ felinids carries nextUid,
      (s.perform request).server = { s with felinids, carries, nextUid } := by
  cases request with
  | spawn prototype => exact ⟨_, _, _, congrArg Effect.server (spawn_eq h prototype)⟩
  | pickUp carrier carried =>
    by_cases hfree : s.carries.Free carrier carried
    · exact ⟨_, _, _, congrArg Effect.server (pickUp_of_free h hfree)⟩
    · obtain ⟨failure, hfail⟩ := pickUp_of_not_free h hfree
      exact ⟨_, _, _, congrArg Effect.server hfail⟩
  | drop carried => exact ⟨_, _, _, congrArg Effect.server (drop_eq h carried)⟩
  | despawn uid => exact ⟨_, _, _, congrArg Effect.server (despawn_eq h uid)⟩
  | edit uid change => exact ⟨_, _, _, congrArg Effect.server (edit_eq h uid change)⟩

/-! ## What every run keeps -/

theorem Sound.perform (h : s.Sound) (request : Request) : (s.perform request).server.Sound := by
  cases request with
  | spawn prototype =>
    show (s.spawn prototype).server.Sound
    rw [spawn_eq h]
    refine ⟨h.carries_working, h.carries_mirrored, ?_⟩
    cases htemplate : s.templates.get? prototype with
    | none => exact h.felinids_working
    | some template => exact h.felinids_working
  | pickUp carrier carried =>
    show (s.pickUp carrier carried).server.Sound
    by_cases hfree : s.carries.Free carrier carried
    · rw [pickUp_of_free h hfree]
      exact ⟨h.carries_working.link carrier carried, h.carries_mirrored.link hfree,
        h.felinids_working⟩
    · obtain ⟨failure, hfail⟩ := pickUp_of_not_free h hfree
      rw [hfail]
      exact h
  | drop carried =>
    show (s.drop carried).server.Sound
    rw [drop_eq h]
    exact ⟨h.carries_working.release carried, h.carries_mirrored.release h.carries_working carried,
      h.felinids_working⟩
  | despawn uid =>
    show (s.despawn uid).server.Sound
    rw [despawn_eq h]
    exact ⟨h.carries_working.detach uid, h.carries_mirrored.detach h.carries_working uid,
      h.felinids_working⟩
  | edit uid change =>
    show (s.edit uid change).server.Sound
    rw [edit_eq h]
    exact ⟨h.carries_working, h.carries_mirrored, h.felinids_working⟩

theorem Sound.after (h : s.Sound) (requests : List Request) : (s.after requests).Sound := by
  induction requests generalizing s with
  | nil => exact h
  | cons request rest ih => exact ih (h.perform request)

/-! ## Carries in every run -/

/-- In every state of every run the two carry tables have the same carries, nobody carries itself,
no entity carries two or is carried by two, and an entity is picked up exactly if it is another one
that nobody carries, by one that carries nothing. -/
theorem carries_of_every_run {tree : FileTree} {config : ServerConfig} {s : Server}
    (h : bootstrap tree config = .ok s) (requests : List Request) :
    let t := s.after requests
    (∀ a b, t.carries.Carries a b ↔ t.carries.IsCarriedBy b a) ∧
      (∀ a, ¬ t.carries.Carries a a ∧ ¬ t.carries.IsCarriedBy a a) ∧
      (∀ a b c, t.carries.Carries a b → t.carries.Carries a c → b = c) ∧
      (∀ a b c, t.carries.Carries a c → t.carries.Carries b c → a = b) ∧
      ∀ a b, (t.pickUp a b).answer = .ok () ↔
        a ≠ b ∧ (∀ c, ¬ t.carries.Carries a c) ∧ ∀ c, ¬ t.carries.IsCarriedBy b c := by
  intro t
  have hsound : t.Sound := (sound_of_bootstrap h).after requests
  have hmirror : ∀ a b, t.carries.Carries a b ↔ t.carries.IsCarriedBy b a := by
    intro a b
    rw [CarryTables.carries_iff, CarryTables.isCarriedBy_iff]
    exact hsound.carries_mirrored.load_iff a b
  have hself : ∀ a, ¬ t.carries.Carries a a := by
    intro a
    rw [CarryTables.carries_iff]
    exact hsound.carries_mirrored.load_ne_self a
  refine ⟨hmirror, fun a => ⟨hself a, fun hrow => hself a ((hmirror a a).2 hrow)⟩, ?_, ?_, ?_⟩
  · intro a b c hb hc
    rw [CarryTables.carries_iff] at hb hc
    exact Option.some.inj (hb.symm.trans hc)
  · intro a b c ha hb
    rw [hmirror, CarryTables.isCarriedBy_iff] at ha hb
    exact Option.some.inj (ha.symm.trans hb)
  · intro a b
    rw [pickUp_answer_eq_ok_iff hsound, CarryTables.Free,
      CarryTables.load?_eq_none_iff_forall, CarryTables.carrier?_eq_none_iff_forall]

/-- A server of a working directory without content. -/
def ofNothing : Server :=
  ofCatalogue {} (({} : Catalogue).record (.missingDirectory ⟨"Resources/Prototypes"⟩))

theorem bootstrap_ofNothing : bootstrap (.empty ["work"]) {} = .ok ofNothing := rfl

/-- Two entities carry each other, one of them a third, and the first one goes. -/
theorem carries_of_every_run_exchange :
    bootstrap (.empty ["work"]) {} = .ok ofNothing ∧
      let t := ofNothing.after [.pickUp ⟨1⟩ ⟨2⟩, .pickUp ⟨2⟩ ⟨1⟩, .drop ⟨1⟩, .pickUp ⟨2⟩ ⟨3⟩,
        .despawn ⟨1⟩, .pickUp ⟨3⟩ ⟨2⟩]
      t.carries.Carries ⟨3⟩ ⟨2⟩ ∧ t.carries.IsCarriedBy ⟨2⟩ ⟨3⟩ ∧ t.carries.Carries ⟨2⟩ ⟨3⟩ :=
  ⟨bootstrap_ofNothing, by decide,
    ((carries_of_every_run bootstrap_ofNothing _).1 _ _).1 (by decide), by decide⟩

end Server

end Station
