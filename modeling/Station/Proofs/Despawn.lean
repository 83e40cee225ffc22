import Station.Proofs.Server

/-!
# Removing an entity for good

After an entity is removed no table mentions it (`Unmentioned`), and what did not concern it is as
it was. A mention comes back only through a request that names the entity (`Server.Names`): it is
picked up or picks up, a felinid component is changed to refer to it, or its id is given out again.
Every other request keeps the tables free of it (`Unmentioned.perform`), because the components that
prototypes describe refer to nobody.
-/

namespace Station

namespace Felinid

/-- Some field refers to an entity. -/
def RefersTo (f : Felinid) (uid : EntityUid) : Prop :=
  f.potentialTarget = some uid ∨ f.eatMouse = some uid ∨ f.actionEntity = some uid

instance (f : Felinid) (uid : EntityUid) : Decidable (f.RefersTo uid) :=
  inferInstanceAs (Decidable (_ ∨ _ ∨ _))

/-- The second component has every field of the first one that did not refer to an entity. -/
structure AgreesApartFrom (uid : EntityUid) (f g : Felinid) : Prop where
  hairballPrototype : g.hairballPrototype = f.hairballPrototype
  hairballAction : g.hairballAction = f.hairballAction
  eatSound : g.eatSound = f.eatSound
  potentialTarget : f.potentialTarget ≠ some uid → g.potentialTarget = f.potentialTarget
  eatMouse : f.eatMouse ≠ some uid → g.eatMouse = f.eatMouse
  actionEntity : f.actionEntity ≠ some uid → g.actionEntity = f.actionEntity

theorem without_ne (uid : EntityUid) (reference : Option EntityUid) :
    without uid reference ≠ some uid := by
  unfold without
  split
  · exact Option.some_ne_none uid ∘ Eq.symm
  · assumption

/-- What is left of a reference was there before. -/
theorem eq_of_without_eq_some {uid other : EntityUid} {reference : Option EntityUid}
    (h : without uid reference = some other) : reference = some other := by
  unfold without at h
  split at h
  · cases h
  · exact h

theorem not_refersTo_forget (uid : EntityUid) (f : Felinid) : ¬ (f.forget uid).RefersTo uid := by
  rintro (h | h | h)
  · exact without_ne uid _ h
  · exact without_ne uid _ h
  · exact without_ne uid _ h

theorem refersTo_of_forget {uid other : EntityUid} {f : Felinid}
    (h : (f.forget uid).RefersTo other) : f.RefersTo other := by
  rcases h with h | h | h
  · exact Or.inl (eq_of_without_eq_some h)
  · exact Or.inr (Or.inl (eq_of_without_eq_some h))
  · exact Or.inr (Or.inr (eq_of_without_eq_some h))

theorem agreesApartFrom_forget (uid : EntityUid) (f : Felinid) :
    AgreesApartFrom uid f (f.forget uid) where
  hairballPrototype := rfl
  hairballAction := rfl
  eatSound := rfl
  potentialTarget := fun h => if_neg h
  eatMouse := fun h => if_neg h
  actionEntity := fun h => if_neg h

/-- A component that a prototype describes refers to nobody. -/
theorem not_refersTo_component (overrides : FelinidOverrides) (uid : EntityUid) :
    ¬ overrides.component.RefersTo uid := by
  rintro (h | h | h) <;> cases h

end Felinid

namespace Server

/-- No carry has an entity for a part, no felinid component is its own, and none refers to it. -/
structure Unmentioned (s : Server) (uid : EntityUid) : Prop where
  not_carries : ∀ other, ¬ s.carries.Carries uid other
  not_load : ∀ other, ¬ s.carries.Carries other uid
  not_carried : ∀ other, ¬ s.carries.IsCarriedBy uid other
  not_carrier : ∀ other, ¬ s.carries.IsCarriedBy other uid
  not_felinid : s.felinids.rows.get? uid = none
  not_refersTo : ∀ other, ∀ felinid ∈ s.felinids.rows.get? other, ¬ felinid.RefersTo uid

/-- A request names an entity: it concerns a carry of the entity, stores a reference to it, or makes
it. -/
def Names (s : Server) (uid : EntityUid) : Request → Prop
  | .spawn prototype => (s.spawn prototype).answer = .ok uid
  | .pickUp carrier carried => carrier = uid ∨ carried = uid
  | .drop _ => False
  | .despawn _ => False
  | .edit other change => ∃ felinid ∈ s.felinids.rows.get? other, (change felinid).RefersTo uid

/-- Some request of a run names an entity when it is performed. -/
def NamedBy (s : Server) (uid : EntityUid) : List Request → Prop
  | [] => False
  | request :: rest => s.Names uid request ∨ (s.perform request).server.NamedBy uid rest

/-- The components that prototypes describe refer to nobody. -/
def TemplatesBare (s : Server) : Prop :=
  ∀ prototype, ∀ template ∈ s.templates.get? prototype, ∀ uid, ¬ template.RefersTo uid

variable {s : Server} {uid : EntityUid}

/-! ## Templates -/

theorem templatesBare_ofCatalogue (config : ServerConfig) (c : Catalogue) :
    (ofCatalogue config c).TemplatesBare := by
  intro prototype template htemplate uid
  have hrow := Table.mem_of_get?_ofList (Option.mem_def.1 htemplate)
  obtain ⟨entity, -, hentity⟩ := List.mem_filterMap.1 hrow
  obtain ⟨component, hcomponent, heq⟩ := Option.map_eq_some_iff.1 hentity
  obtain ⟨overrides, -, hoverrides⟩ := Option.map_eq_some_iff.1 hcomponent
  have hsame : template = overrides.component := (congrArg Prod.snd heq).symm.trans hoverrides.symm
  rw [hsame]
  exact Felinid.not_refersTo_component overrides uid

/-- No request changes what prototypes describe. -/
theorem templates_perform (h : s.Sound) (request : Request) :
    (s.perform request).server.templates = s.templates := by
  obtain ⟨felinids, carries, nextUid, hframe⟩ := perform_frame h request
  rw [hframe]

theorem TemplatesBare.perform (hbare : s.TemplatesBare) (h : s.Sound) (request : Request) :
    (s.perform request).server.TemplatesBare := by
  intro prototype template htemplate
  rw [templates_perform h] at htemplate
  exact hbare prototype template htemplate

theorem TemplatesBare.after (hbare : s.TemplatesBare) (h : s.Sound) (requests : List Request) :
    (s.after requests).TemplatesBare := by
  induction requests generalizing s with
  | nil => exact hbare
  | cons request rest ih => exact ih (hbare.perform h request) (h.perform request)

/-! ## What despawning leaves -/

/-- In mirrored tables the rows of an entity itself tell whether it has part in a carry. -/
theorem Unmentioned.of_views (h : s.Sound) (hload : s.carries.load? uid = none)
    (hcarrier : s.carries.carrier? uid = none) (hfelinid : s.felinids.rows.get? uid = none)
    (hrefers : ∀ other, ∀ felinid ∈ s.felinids.rows.get? other, ¬ felinid.RefersTo uid) :
    s.Unmentioned uid where
  not_carries := CarryTables.load?_eq_none_iff_forall.1 hload
  not_load := by
    intro other hcarries
    rw [CarryTables.carries_iff, h.carries_mirrored.load_iff, hcarrier] at hcarries
    cases hcarries
  not_carried := CarryTables.carrier?_eq_none_iff_forall.1 hcarrier
  not_carrier := by
    intro other hcarried
    rw [CarryTables.isCarriedBy_iff, ← h.carries_mirrored.load_iff, hload] at hcarried
    cases hcarried
  not_felinid := hfelinid
  not_refersTo := hrefers

theorem Unmentioned.load?_eq_none (hu : s.Unmentioned uid) : s.carries.load? uid = none :=
  CarryTables.load?_eq_none_iff_forall.2 hu.not_carries

theorem Unmentioned.carrier?_eq_none (hu : s.Unmentioned uid) : s.carries.carrier? uid = none :=
  CarryTables.carrier?_eq_none_iff_forall.2 hu.not_carried

theorem get?_forgetting (felinids : ComponentTable Felinid) (uid other : EntityUid) :
    (forgetting felinids uid).rows.get? other =
      if other = uid then none else (felinids.rows.get? other).map (Felinid.forget uid) := by
  rw [forgetting, Table.get?_mapValues, Table.get?_erase]
  split <;> rfl

theorem unmentioned_despawn (h : s.Sound) (uid : EntityUid) :
    (s.despawn uid).server.Unmentioned uid := by
  have hsound : (s.despawn uid).server.Sound := h.perform (.despawn uid)
  rw [despawn_eq h] at hsound ⊢
  refine .of_views hsound ?_ ?_ ?_ ?_
  · show (s.carries.detach uid).load? uid = none
    rw [CarryTables.load?_detach h.carries_working h.carries_mirrored, if_pos (Or.inl rfl)]
  · show (s.carries.detach uid).carrier? uid = none
    rw [CarryTables.carrier?_detach h.carries_working h.carries_mirrored, if_pos (Or.inl rfl)]
  · show (forgetting s.felinids uid).rows.get? uid = none
    rw [get?_forgetting, if_pos rfl]
  · intro other felinid hfelinid
    have hrow : (forgetting s.felinids uid).rows.get? other = some felinid := hfelinid
    rw [get?_forgetting] at hrow
    split at hrow
    · cases hrow
    · obtain ⟨before, -, rfl⟩ := Option.map_eq_some_iff.1 hrow
      exact Felinid.not_refersTo_forget uid before

/-- Carries between two other entities are left alone. -/
theorem carries_despawn_iff (h : s.Sound) {a b : EntityUid} (ha : a ≠ uid) (hb : b ≠ uid) :
    (s.despawn uid).server.carries.Carries a b ↔ s.carries.Carries a b := by
  rw [despawn_eq h, CarryTables.carries_iff, CarryTables.carries_iff,
    CarryTables.load?_detach h.carries_working h.carries_mirrored]
  split
  · rename_i hgone
    have hload : s.carries.load? a = some uid := hgone.resolve_left ha
    rw [hload]
    constructor
    · intro heq
      cases heq
    · intro heq
      exact absurd (Option.some.inj heq).symm hb
  · rfl

theorem isCarriedBy_despawn_iff (h : s.Sound) {a b : EntityUid} (ha : a ≠ uid) (hb : b ≠ uid) :
    (s.despawn uid).server.carries.IsCarriedBy b a ↔ s.carries.IsCarriedBy b a := by
  have hsound : (s.despawn uid).server.Sound := h.perform (.despawn uid)
  rw [CarryTables.isCarriedBy_iff, CarryTables.isCarriedBy_iff,
    ← hsound.carries_mirrored.load_iff, ← h.carries_mirrored.load_iff,
    ← CarryTables.carries_iff, ← CarryTables.carries_iff]
  exact carries_despawn_iff h ha hb

/-- The components of other entities only lose what referred to the entity. -/
theorem felinid_despawn (h : s.Sound) {other : EntityUid} (hother : other ≠ uid) :
    (s.despawn uid).server.felinids.rows.get? other =
      (s.felinids.rows.get? other).map (Felinid.forget uid) := by
  rw [despawn_eq h]
  exact (get?_forgetting s.felinids uid other).trans (if_neg hother)

/-! ## Requests that do not name an entity -/

theorem Unmentioned.spawn (hu : s.Unmentioned uid) (h : s.Sound) (hbare : s.TemplatesBare)
    {prototype : PrototypeId} (hnames : ¬ s.Names uid (.spawn prototype)) :
    (s.perform (.spawn prototype)).server.Unmentioned uid := by
  have hsound := h.perform (.spawn prototype)
  rw [Server.perform, spawn_eq h] at hsound ⊢
  have hfresh : uid ≠ s.nextUid := by
    rintro rfl
    exact hnames (by rw [Names, spawn_eq h])
  cases htemplate : s.templates.get? prototype with
  | none =>
    simp only [Effect.map, htemplate] at hsound ⊢
    exact .of_views hsound hu.load?_eq_none hu.carrier?_eq_none hu.not_felinid hu.not_refersTo
  | some template =>
    simp only [Effect.map, htemplate] at hsound ⊢
    refine .of_views hsound hu.load?_eq_none hu.carrier?_eq_none ?_ ?_
    · show (s.felinids.rows.insert s.nextUid template).get? uid = none
      rw [Table.get?_insert, if_neg hfresh]
      exact hu.not_felinid
    · intro other felinid hfelinid
      have hrow : (s.felinids.rows.insert s.nextUid template).get? other = some felinid := hfelinid
      rw [Table.get?_insert] at hrow
      split at hrow
      · -- the new component is the one that the prototype describes
        rw [← Option.some.inj hrow]
        exact hbare prototype template htemplate uid
      · exact hu.not_refersTo other felinid hrow

theorem Unmentioned.pickUp (hu : s.Unmentioned uid) (h : s.Sound) {carrier carried : EntityUid}
    (hnames : ¬ s.Names uid (.pickUp carrier carried)) :
    (s.perform (.pickUp carrier carried)).server.Unmentioned uid := by
  have hsound := h.perform (.pickUp carrier carried)
  have hcarrier : uid ≠ carrier := fun heq => hnames (Or.inl heq.symm)
  have hcarried : uid ≠ carried := fun heq => hnames (Or.inr heq.symm)
  by_cases hfree : s.carries.Free carrier carried
  · rw [Server.perform, pickUp_of_free h hfree] at hsound ⊢
    refine .of_views hsound ?_ ?_ hu.not_felinid hu.not_refersTo
    · show (s.carries.link carrier carried).load? uid = none
      rw [CarryTables.load?_link, if_neg hcarrier]
      exact hu.load?_eq_none
    · show (s.carries.link carrier carried).carrier? uid = none
      rw [CarryTables.carrier?_link, if_neg hcarried]
      exact hu.carrier?_eq_none
  · obtain ⟨failure, hfail⟩ := pickUp_of_not_free h hfree
    rw [Server.perform, hfail]
    exact hu

theorem Unmentioned.drop (hu : s.Unmentioned uid) (h : s.Sound) (carried : EntityUid) :
    (s.perform (.drop carried)).server.Unmentioned uid := by
  have hsound := h.perform (.drop carried)
  rw [Server.perform, drop_eq h] at hsound ⊢
  refine .of_views hsound ?_ ?_ hu.not_felinid hu.not_refersTo
  · show (s.carries.release carried).tables.load? uid = none
    rw [CarryTables.load?_release h.carries_working h.carries_mirrored, hu.load?_eq_none, ite_self]
  · show (s.carries.release carried).tables.carrier? uid = none
    rw [CarryTables.carrier?_release h.carries_working, hu.carrier?_eq_none, ite_self]

theorem Unmentioned.despawn (hu : s.Unmentioned uid) (h : s.Sound) (removed : EntityUid) :
    (s.perform (.despawn removed)).server.Unmentioned uid := by
  have hsound := h.perform (.despawn removed)
  rw [Server.perform, despawn_eq h] at hsound ⊢
  refine .of_views hsound ?_ ?_ ?_ ?_
  · show (s.carries.detach removed).load? uid = none
    rw [CarryTables.load?_detach h.carries_working h.carries_mirrored, hu.load?_eq_none, ite_self]
  · show (s.carries.detach removed).carrier? uid = none
    rw [CarryTables.carrier?_detach h.carries_working h.carries_mirrored, hu.carrier?_eq_none,
      ite_self]
  · show (forgetting s.felinids removed).rows.get? uid = none
    rw [get?_forgetting, hu.not_felinid, Option.map_none, ite_self]
  · intro other felinid hfelinid
    have hrow : (forgetting s.felinids removed).rows.get? other = some felinid := hfelinid
    rw [get?_forgetting] at hrow
    split at hrow
    · cases hrow
    · obtain ⟨before, hbefore, rfl⟩ := Option.map_eq_some_iff.1 hrow
      exact hu.not_refersTo other before hbefore ∘ Felinid.refersTo_of_forget

theorem Unmentioned.edit (hu : s.Unmentioned uid) (h : s.Sound) {changed : EntityUid}
    {change : Felinid → Felinid} (hnames : ¬ s.Names uid (.edit changed change)) :
    (s.perform (.edit changed change)).server.Unmentioned uid := by
  have hsound := h.perform (.edit changed change)
  rw [Server.perform, edit_eq h] at hsound ⊢
  refine .of_views hsound hu.load?_eq_none hu.carrier?_eq_none ?_ ?_
  · show (s.felinids.rows.modify changed change).get? uid = none
    rw [Table.get?_modify, hu.not_felinid, Option.map_none, ite_self]
  · intro other felinid hfelinid
    have hrow : (s.felinids.rows.modify changed change).get? other = some felinid := hfelinid
    rw [Table.get?_modify] at hrow
    split at hrow
    · rename_i hother
      obtain ⟨before, hbefore, rfl⟩ := Option.map_eq_some_iff.1 hrow
      intro hrefers
      exact hnames ⟨before, hother ▸ hbefore, hrefers⟩
    · exact hu.not_refersTo other felinid hrow

/-- A request that does not name an unmentioned entity leaves it unmentioned. -/
theorem Unmentioned.perform (hu : s.Unmentioned uid) (h : s.Sound) (hbare : s.TemplatesBare)
    {request : Request} (hnames : ¬ s.Names uid request) :
    (s.perform request).server.Unmentioned uid := by
  cases request with
  | spawn prototype => exact hu.spawn h hbare hnames
  | pickUp carrier carried => exact hu.pickUp h hnames
  | drop carried => exact hu.drop h carried
  | despawn removed => exact hu.despawn h removed
  | edit changed change => exact hu.edit h hnames

theorem Unmentioned.after (hu : s.Unmentioned uid) (h : s.Sound) (hbare : s.TemplatesBare)
    {requests : List Request} (hnamed : ¬ s.NamedBy uid requests) :
    (s.after requests).Unmentioned uid := by
  induction requests generalizing s with
  | nil => exact hu
  | cons request rest ih =>
    obtain ⟨hnames, hrest⟩ := not_or.1 hnamed
    exact ih (hu.perform h hbare hnames) (h.perform request) (hbare.perform h request) hrest

/-! ## Despawning in every run -/

/-- Despawning succeeds in every state, leaves no mention of the entity, and touches nothing that
did not concern it. No later run that does not name the entity brings a mention of it back. -/
theorem despawn_in_every_run {tree : FileTree} {config : ServerConfig} {start : Server}
    (h : bootstrap tree config = .ok start) (requests : List Request) (uid : EntityUid) :
    let s := start.after requests
    let t := (s.despawn uid).server
    (s.despawn uid).answer = .ok () ∧
      t.Unmentioned uid ∧
      (∀ a b, a ≠ uid → b ≠ uid →
        (t.carries.Carries a b ↔ s.carries.Carries a b) ∧
          (t.carries.IsCarriedBy b a ↔ s.carries.IsCarriedBy b a)) ∧
      (∀ other, other ≠ uid →
        t.felinids.rows.contains other = s.felinids.rows.contains other ∧
          ∀ f ∈ s.felinids.rows.get? other, ∃ g ∈ t.felinids.rows.get? other,
            f.AgreesApartFrom uid g) ∧
      t = { s with carries := t.carries, felinids := t.felinids } ∧
      ∀ later, ¬ t.NamedBy uid later → (t.after later).Unmentioned uid := by
  intro s t
  have hsound : s.Sound := (sound_of_bootstrap h).after requests
  have hbare : s.TemplatesBare := by
    obtain ⟨c, -, rfl⟩ := exists_catalogue_of_bootstrap h
    exact (templatesBare_ofCatalogue config c).after (sound_ofCatalogue config c) requests
  have hunmentioned : t.Unmentioned uid := unmentioned_despawn hsound uid
  have ht : t = { s with
      carries := s.carries.detach uid, felinids := forgetting s.felinids uid } :=
    congrArg Effect.server (despawn_eq hsound uid)
  refine ⟨by rw [despawn_eq hsound], hunmentioned, ?_, ?_, by rw [ht], ?_⟩
  · intro a b ha hb
    exact ⟨carries_despawn_iff hsound ha hb, isCarriedBy_despawn_iff hsound ha hb⟩
  · intro other hother
    have hrow := felinid_despawn hsound hother
    constructor
    · rw [Table.contains, Table.contains, hrow, Option.isSome_map]
    · intro f hf
      refine ⟨f.forget uid, ?_, Felinid.agreesApartFrom_forget uid f⟩
      rw [Option.mem_def, hrow, Option.mem_def.1 hf, Option.map_some]
  · intro later hlater
    have hperform : (s.perform (.despawn uid)).server = t := rfl
    exact hunmentioned.after (hperform ▸ hsound.perform (.despawn uid))
      (hperform ▸ hbare.perform hsound (.despawn uid)) hlater

/-- The first of two entities that carry each other goes, and the other one is picked up again. -/
theorem despawn_in_every_run_exchange :
    bootstrap (.empty ["work"]) {} = .ok ofNothing ∧
      let s := ofNothing.after [.pickUp ⟨1⟩ ⟨2⟩, .pickUp ⟨2⟩ ⟨1⟩]
      let t := (s.despawn ⟨1⟩).server
      s.carries.Carries ⟨1⟩ ⟨2⟩ ∧ s.carries.Carries ⟨2⟩ ⟨1⟩ ∧
        (t.after [.pickUp ⟨3⟩ ⟨2⟩, .drop ⟨1⟩]).carries.Carries ⟨3⟩ ⟨2⟩ ∧
        (t.after [.pickUp ⟨3⟩ ⟨2⟩, .drop ⟨1⟩]).Unmentioned ⟨1⟩ := by
  refine ⟨bootstrap_ofNothing, by decide, by decide, by decide, ?_⟩
  obtain ⟨-, -, -, -, -, hlater⟩ := despawn_in_every_run bootstrap_ofNothing
    [.pickUp ⟨1⟩ ⟨2⟩, .pickUp ⟨2⟩ ⟨1⟩] ⟨1⟩
  refine hlater _ ?_
  rintro ((h | h) | h | h)
  · cases h
  · cases h
  · cases h
  · cases h

end Server

end Station
