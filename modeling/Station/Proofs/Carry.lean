import Station.Carry
import Station.Proofs.Store
import Station.Proofs.Table

/-!
# Carries in memory

A pair of carry tables in memory is read through two views: `load?`, what a carrier carries, and
`carrier?`, who carries an entity. `begin?_of_free` and `begin?_of_not_free` say what starting a
carry comes to, `release_of_none` and `release_of_some` what ending one comes to, for any two
tables that work.

The two tables mirror each other (`Mirrored`) if they tell of the same carries and nobody carries
itself. Starting a carry keeps that (`Mirrored.link`), and so does ending one
(`Mirrored.release`), after which the views differ at that carry only (`load?_release`,
`carrier?_release`). Two releases take an entity out of every carry (`load?_detach`,
`carrier?_detach`), also if the two entities carry each other.
-/

namespace Station.CarryTables

/-- Carry tables in memory. -/
abbrev InMemory := CarryTables (ComponentTable Carrying) (ComponentTable BeingCarried)

/-- What an entity carries, by its own row. -/
def load? (t : InMemory) (carrier : EntityUid) : Option EntityUid :=
  (t.carrying.rows.get? carrier).map Carrying.carried

/-- Who carries an entity, by its own row. -/
def carrier? (t : InMemory) (carried : EntityUid) : Option EntityUid :=
  (t.beingCarried.rows.get? carried).map BeingCarried.carrier

/-- The carrier has a row for the carry. -/
def Carries (t : InMemory) (carrier carried : EntityUid) : Prop :=
  (carrier, ⟨carried⟩) ∈ t.carrying.rows.rows

/-- The carried entity has a row for the carry. -/
def IsCarriedBy (t : InMemory) (carried carrier : EntityUid) : Prop :=
  (carried, ⟨carrier⟩) ∈ t.beingCarried.rows.rows

instance (t : InMemory) (carrier carried : EntityUid) : Decidable (t.Carries carrier carried) :=
  inferInstanceAs (Decidable (_ ∈ _))

instance (t : InMemory) (carried carrier : EntityUid) :
    Decidable (t.IsCarriedBy carried carrier) :=
  inferInstanceAs (Decidable (_ ∈ _))

/-- Neither table is broken. -/
structure Working (t : InMemory) : Prop where
  carrying : t.carrying.broken = false
  beingCarried : t.beingCarried.broken = false

/-- The tables tell of the same carries, and nobody carries itself. -/
structure Mirrored (t : InMemory) : Prop where
  load_iff : ∀ carrier carried, t.load? carrier = some carried ↔ t.carrier? carried = some carrier
  load_ne_self : ∀ uid, t.load? uid ≠ some uid

/-- A carry of the second entity by the first may start. -/
def Free (t : InMemory) (carrier carried : EntityUid) : Prop :=
  carrier ≠ carried ∧ t.load? carrier = none ∧ t.carrier? carried = none

/-- The tables with one more carry. -/
def link (t : InMemory) (carrier carried : EntityUid) : InMemory where
  carrying := { t.carrying with rows := t.carrying.rows.insert carrier ⟨carried⟩ }
  beingCarried := { t.beingCarried with rows := t.beingCarried.rows.insert carried ⟨carrier⟩ }

/-- The tables without the row of the carried entity, and without the carrier's row if it points
back. -/
def unlink (t : InMemory) (carrier carried : EntityUid) : InMemory where
  carrying :=
    if t.load? carrier = some carried then
      { t.carrying with rows := t.carrying.rows.erase carrier }
    else t.carrying
  beingCarried := { t.beingCarried with rows := t.beingCarried.rows.erase carried }

variable {t : InMemory}

/-! ## The views -/

theorem contains_carrying (t : InMemory) (carrier : EntityUid) :
    t.carrying.rows.contains carrier = (t.load? carrier).isSome := by
  simp [load?, Table.contains]

theorem contains_beingCarried (t : InMemory) (carried : EntityUid) :
    t.beingCarried.rows.contains carried = (t.carrier? carried).isSome := by
  simp [carrier?, Table.contains]

theorem load?_eq_some_iff {carrier carried : EntityUid} :
    t.load? carrier = some carried ↔ t.carrying.rows.get? carrier = some ⟨carried⟩ := by
  rw [load?, Option.map_eq_some_iff]
  constructor
  · rintro ⟨side, hside, rfl⟩
    exact hside
  · intro h
    exact ⟨⟨carried⟩, h, rfl⟩

theorem carrier?_eq_some_iff {carrier carried : EntityUid} :
    t.carrier? carried = some carrier ↔ t.beingCarried.rows.get? carried = some ⟨carrier⟩ := by
  rw [carrier?, Option.map_eq_some_iff]
  constructor
  · rintro ⟨link, hlink, rfl⟩
    exact hlink
  · intro h
    exact ⟨⟨carrier⟩, h, rfl⟩

theorem load?_eq_none_iff {carrier : EntityUid} :
    t.load? carrier = none ↔ t.carrying.rows.get? carrier = none :=
  Option.map_eq_none_iff

theorem carrier?_eq_none_iff {carried : EntityUid} :
    t.carrier? carried = none ↔ t.beingCarried.rows.get? carried = none :=
  Option.map_eq_none_iff

theorem carries_iff {carrier carried : EntityUid} :
    t.Carries carrier carried ↔ t.load? carrier = some carried := by
  rw [load?_eq_some_iff]
  exact Table.mem_rows_iff _ _ _

theorem isCarriedBy_iff {carried carrier : EntityUid} :
    t.IsCarriedBy carried carrier ↔ t.carrier? carried = some carrier := by
  rw [carrier?_eq_some_iff]
  exact Table.mem_rows_iff _ _ _

theorem load?_eq_none_iff_forall {carrier : EntityUid} :
    t.load? carrier = none ↔ ∀ carried, ¬ t.Carries carrier carried := by
  simp only [carries_iff, Option.eq_none_iff_forall_ne_some]

theorem carrier?_eq_none_iff_forall {carried : EntityUid} :
    t.carrier? carried = none ↔ ∀ carrier, ¬ t.IsCarriedBy carried carrier := by
  simp only [isCarriedBy_iff, Option.eq_none_iff_forall_ne_some]

theorem load?_link (t : InMemory) (carrier carried probe : EntityUid) :
    (t.link carrier carried).load? probe =
      if probe = carrier then some carried else t.load? probe := by
  simp only [load?, link, Table.get?_insert]
  split <;> rfl

theorem carrier?_link (t : InMemory) (carrier carried probe : EntityUid) :
    (t.link carrier carried).carrier? probe =
      if probe = carried then some carrier else t.carrier? probe := by
  simp only [carrier?, link, Table.get?_insert]
  split <;> rfl

theorem load?_unlink (t : InMemory) (carrier carried probe : EntityUid) :
    (t.unlink carrier carried).load? probe =
      if probe = carrier ∧ t.load? carrier = some carried then none else t.load? probe := by
  by_cases hpoints : t.load? carrier = some carried
  · have hcarrying : (t.unlink carrier carried).carrying =
        { t.carrying with rows := t.carrying.rows.erase carrier } := if_pos hpoints
    rw [load?, hcarrying, Table.get?_erase]
    by_cases hprobe : probe = carrier
    · rw [if_pos hprobe, if_pos ⟨hprobe, hpoints⟩]
      rfl
    · rw [if_neg hprobe, if_neg fun h => hprobe h.1]
      rfl
  · have hcarrying : (t.unlink carrier carried).carrying = t.carrying := if_neg hpoints
    rw [load?, hcarrying, if_neg fun h => hpoints h.2]
    rfl

theorem carrier?_unlink (t : InMemory) (carrier carried probe : EntityUid) :
    (t.unlink carrier carried).carrier? probe =
      if probe = carried then none else t.carrier? probe := by
  simp only [carrier?, unlink, Table.get?_erase]
  split <;> rfl

theorem Working.link (h : t.Working) (carrier carried : EntityUid) :
    (t.link carrier carried).Working :=
  ⟨h.carrying, h.beingCarried⟩

theorem Working.unlink (h : t.Working) (carrier carried : EntityUid) :
    (t.unlink carrier carried).Working := by
  refine ⟨?_, h.beingCarried⟩
  simp only [CarryTables.unlink]
  split
  · exact h.carrying
  · exact h.carrying

/-! ## Starting a carry -/

/-- A carry that may start does. -/
theorem begin?_of_free (h : t.Working) {carrier carried : EntityUid}
    (hfree : t.Free carrier carried) :
    t.begin? carrier carried = (.ok (), t.link carrier carried) := by
  obtain ⟨hne, hload, hcarrier⟩ := hfree
  have hidle : ComponentStore.contains t.carrying carrier = .ok false := by
    rw [← Option.isSome_none, ← hload, ← contains_carrying]
    exact ComponentTable.contains_of_working h.carrying carrier
  have hfloor : ComponentStore.contains t.beingCarried carried = .ok false := by
    rw [← Option.isSome_none, ← hcarrier, ← contains_beingCarried]
    exact ComponentTable.contains_of_working h.beingCarried carried
  have hinsert : ComponentStore.insert t.carrying carrier ⟨carried⟩ = _ :=
    ComponentTable.insert_of_working h.carrying carrier ⟨carried⟩
  have hinsert' : ComponentStore.insert t.beingCarried carried ⟨carrier⟩ = _ :=
    ComponentTable.insert_of_working h.beingCarried carried ⟨carrier⟩
  simp only [begin?, if_neg hne, hidle, hfloor, hinsert, hinsert']
  rfl

/-- A carry that may not start fails and changes nothing. -/
theorem begin?_of_not_free (h : t.Working) {carrier carried : EntityUid}
    (hfree : ¬ t.Free carrier carried) :
    ∃ error, t.begin? carrier carried = (.error error, t) := by
  have hbusy : ComponentStore.contains t.carrying carrier = .ok (t.load? carrier).isSome := by
    rw [← contains_carrying]
    exact ComponentTable.contains_of_working h.carrying carrier
  have hheld : ComponentStore.contains t.beingCarried carried =
      .ok (t.carrier? carried).isSome := by
    rw [← contains_beingCarried]
    exact ComponentTable.contains_of_working h.beingCarried carried
  by_cases hself : carrier = carried
  · exact ⟨.selfCarry carrier, by rw [begin?, if_pos hself]⟩
  cases hload : t.load? carrier with
  | some load =>
    refine ⟨.alreadyCarrying carrier, ?_⟩
    simp only [begin?, if_neg hself, hbusy, hload, Option.isSome_some]
  | none =>
    cases hcarrier : t.carrier? carried with
    | some other =>
      refine ⟨.alreadyCarried carried, ?_⟩
      simp only [begin?, if_neg hself, hbusy, hload, hheld, hcarrier, Option.isSome_some,
        Option.isSome_none]
    | none => exact absurd ⟨hself, hload, hcarrier⟩ hfree

/-- A new carry is told by both tables. -/
theorem Mirrored.link (h : t.Mirrored) {carrier carried : EntityUid}
    (hfree : t.Free carrier carried) : (t.link carrier carried).Mirrored := by
  obtain ⟨hne, hload, hcarrier⟩ := hfree
  constructor
  · intro a b
    rw [load?_link, carrier?_link]
    by_cases ha : a = carrier
    · by_cases hb : b = carried
      · simp [ha, hb]
      · -- `a` was idle, so no row of the carried side pointed at it
        have hother : t.carrier? b ≠ some a := by
          rw [ha, Ne, ← h.load_iff, hload]
          exact Option.some_ne_none b ∘ Eq.symm
        rw [if_pos ha, if_neg hb]
        constructor
        · intro heq
          exact absurd (Option.some.inj heq).symm hb
        · intro heq
          exact absurd heq hother
    · by_cases hb : b = carried
      · have hother : t.load? a ≠ some b := by
          rw [hb, Ne, h.load_iff, hcarrier]
          exact Option.some_ne_none a ∘ Eq.symm
        rw [if_neg ha, if_pos hb]
        constructor
        · intro heq
          exact absurd heq hother
        · intro heq
          exact absurd (Option.some.inj heq).symm ha
      · rw [if_neg ha, if_neg hb]
        exact h.load_iff a b
  · intro uid
    rw [load?_link]
    split
    · rename_i huid
      intro heq
      exact hne (huid ▸ (Option.some.inj heq).symm)
    · exact h.load_ne_self uid

/-! ## Ending a carry -/

theorem clearCarrier_eq (h : t.Working) (carrier carried : EntityUid) :
    clearCarrier t.carrying carrier carried = .ok (t.unlink carrier carried).carrying := by
  have hget : ComponentStore.get t.carrying carrier = .ok (t.carrying.rows.get? carrier) :=
    ComponentTable.get_of_working h.carrying carrier
  have hremove : ComponentStore.remove t.carrying carrier = _ :=
    ComponentTable.remove_of_working h.carrying carrier
  cases hside : t.carrying.rows.get? carrier with
  | none =>
    have hload : t.load? carrier = none := load?_eq_none_iff.2 hside
    simp only [clearCarrier, hget, hside, unlink, hload]
    rfl
  | some side =>
    have hload : t.load? carrier = some side.carried := load?_eq_some_iff.2 hside
    simp only [clearCarrier, hget, hside, unlink, hload, Option.some.injEq, hremove]
    split <;> rfl

/-- Nothing happens to an entity that nobody carries, whatever the table of the carriers is like. -/
theorem release_of_loose (h : t.beingCarried.broken = false) {carried : EntityUid}
    (hnone : t.carrier? carried = none) : t.release carried = ⟨.ok false, t, []⟩ := by
  have hrow := carrier?_eq_none_iff.1 hnone
  have hremove : ComponentStore.remove t.beingCarried carried = _ :=
    ComponentTable.remove_of_working h carried
  rw [hrow, Table.erase_of_get?_eq_none hrow] at hremove
  simp only [release, hremove]

/-- Nothing happens to an entity that nobody carries. -/
theorem release_of_none (h : t.Working) {carried : EntityUid} (hnone : t.carrier? carried = none) :
    t.release carried = ⟨.ok false, t, []⟩ :=
  release_of_loose h.beingCarried hnone

/-- The carry of a carried entity ends, and is raised once both sides are clear. -/
theorem release_of_some (h : t.Working) {carrier carried : EntityUid}
    (hsome : t.carrier? carried = some carrier) :
    t.release carried =
      ⟨.ok true, t.unlink carrier carried, [⟨carried, t.unlink carrier carried⟩]⟩ := by
  have hremove : ComponentStore.remove t.beingCarried carried = _ :=
    ComponentTable.remove_of_working h.beingCarried carried
  rw [carrier?_eq_some_iff.1 hsome] at hremove
  simp only [release, hremove, clearCarrier_eq h]
  rfl

theorem Working.release (h : t.Working) (carried : EntityUid) :
    (t.release carried).tables.Working := by
  cases hcarrier : t.carrier? carried with
  | none =>
    rw [release_of_none h hcarrier]
    exact h
  | some carrier =>
    rw [release_of_some h hcarrier]
    exact h.unlink carrier carried

theorem release_answer (h : t.Working) (carried : EntityUid) :
    (t.release carried).answer = .ok (t.carrier? carried).isSome := by
  cases hcarrier : t.carrier? carried with
  | none => rw [release_of_none h hcarrier, Option.isSome_none]
  | some carrier => rw [release_of_some h hcarrier, Option.isSome_some]

/-- A release raises one drop, on the carried entity, or none. -/
theorem release_drops (h : t.Working) (carried : EntityUid) :
    (t.release carried).drops.map Drop.uid =
      if (t.carrier? carried).isSome then [carried] else [] := by
  cases hcarrier : t.carrier? carried with
  | none =>
    rw [release_of_none h hcarrier]
    rfl
  | some carrier =>
    rw [release_of_some h hcarrier]
    rfl

theorem carrier?_release (h : t.Working) (carried probe : EntityUid) :
    (t.release carried).tables.carrier? probe =
      if probe = carried then none else t.carrier? probe := by
  cases hcarrier : t.carrier? carried with
  | none =>
    rw [release_of_none h hcarrier]
    split
    · rename_i hprobe
      rw [hprobe, hcarrier]
    · rfl
  | some carrier =>
    rw [release_of_some h hcarrier]
    exact carrier?_unlink t carrier carried probe

/-- In mirrored tables a release clears the row of the carrier, whoever that is. -/
theorem load?_release (h : t.Working) (hm : t.Mirrored) (carried probe : EntityUid) :
    (t.release carried).tables.load? probe =
      if t.load? probe = some carried then none else t.load? probe := by
  cases hcarrier : t.carrier? carried with
  | none =>
    rw [release_of_none h hcarrier]
    split
    · rename_i hload
      rw [hm.load_iff, hcarrier] at hload
      cases hload
    · rfl
  | some carrier =>
    have hload : t.load? carrier = some carried := (hm.load_iff _ _).2 hcarrier
    rw [release_of_some h hcarrier, load?_unlink]
    refine if_congr ?_ rfl rfl
    constructor
    · rintro ⟨rfl, hpoints⟩
      exact hpoints
    · intro hprobe
      rw [hm.load_iff, hcarrier] at hprobe
      exact ⟨(Option.some.inj hprobe).symm, hload⟩

/-- An ended carry is told by neither table. -/
theorem Mirrored.release (hm : t.Mirrored) (h : t.Working) (carried : EntityUid) :
    (t.release carried).tables.Mirrored := by
  constructor
  · intro a b
    rw [load?_release h hm, carrier?_release h]
    by_cases hb : b = carried
    · rw [if_pos hb, hb]
      split
      · simp
      · rename_i hload
        simp [hload]
    · rw [if_neg hb]
      split
      · rename_i hload
        have hcarrier := (hm.load_iff _ _).1 hload
        constructor
        · intro heq
          cases heq
        · intro heq
          have := (hm.load_iff _ _).2 heq
          rw [hload] at this
          exact absurd (Option.some.inj this).symm hb
      · exact hm.load_iff a b
  · intro uid
    rw [load?_release h hm]
    split
    · exact Option.some_ne_none uid ∘ Eq.symm
    · exact hm.load_ne_self uid

/-! ## Leaving every carry -/

/-- The tables after the release of what an entity carries. -/
def unload (t : InMemory) (carrier : EntityUid) : InMemory :=
  match t.load? carrier with
  | none => t
  | some carried => (t.release carried).tables

/-- The tables after the release of an entity, and then of what it carries. -/
def detach (t : InMemory) (uid : EntityUid) : InMemory := (t.release uid).tables.unload uid

theorem Working.unload (h : t.Working) (carrier : EntityUid) : (t.unload carrier).Working := by
  unfold CarryTables.unload
  split
  · exact h
  · exact h.release _

theorem Mirrored.unload (hm : t.Mirrored) (h : t.Working) (carrier : EntityUid) :
    (t.unload carrier).Mirrored := by
  unfold CarryTables.unload
  split
  · exact hm
  · exact hm.release h _

theorem load?_unload (h : t.Working) (hm : t.Mirrored) (carrier probe : EntityUid) :
    (t.unload carrier).load? probe = if probe = carrier then none else t.load? probe := by
  unfold unload
  cases hload : t.load? carrier with
  | none =>
    show t.load? probe = _
    split
    · rename_i hprobe
      rw [hprobe, hload]
    · rfl
  | some carried =>
    show (t.release carried).tables.load? probe = _
    rw [load?_release h hm]
    refine if_congr ?_ rfl rfl
    constructor
    · intro hprobe
      -- two carriers of one entity are one
      rw [hm.load_iff] at hprobe hload
      exact Option.some.inj (hprobe.symm.trans hload)
    · intro hprobe
      rw [hprobe, hload]

theorem carrier?_unload (h : t.Working) (hm : t.Mirrored) (carrier probe : EntityUid) :
    (t.unload carrier).carrier? probe =
      if t.carrier? probe = some carrier then none else t.carrier? probe := by
  unfold unload
  cases hload : t.load? carrier with
  | none =>
    show t.carrier? probe = _
    rw [if_neg]
    intro hcarrier
    rw [(hm.load_iff _ _).2 hcarrier] at hload
    cases hload
  | some carried =>
    show (t.release carried).tables.carrier? probe = _
    rw [carrier?_release h]
    refine if_congr ?_ rfl rfl
    constructor
    · intro hprobe
      rw [hprobe]
      exact (hm.load_iff _ _).1 hload
    · intro hcarrier
      exact Option.some.inj (((hm.load_iff _ _).2 hcarrier).symm.trans hload)

/-- Nobody carries itself, so being dropped leaves an entity what it carries. -/
theorem load?_release_self (h : t.Working) (hm : t.Mirrored) (uid : EntityUid) :
    (t.release uid).tables.load? uid = t.load? uid := by
  rw [load?_release h hm, if_neg (hm.load_ne_self uid)]

theorem Working.detach (h : t.Working) (uid : EntityUid) : (t.detach uid).Working :=
  (h.release uid).unload uid

theorem Mirrored.detach (hm : t.Mirrored) (h : t.Working) (uid : EntityUid) :
    (t.detach uid).Mirrored :=
  (hm.release h uid).unload (h.release uid) uid

theorem load?_detach (h : t.Working) (hm : t.Mirrored) (uid probe : EntityUid) :
    (t.detach uid).load? probe =
      if probe = uid ∨ t.load? probe = some uid then none else t.load? probe := by
  rw [detach, load?_unload (h.release uid) (hm.release h uid), load?_release h hm]
  by_cases hprobe : probe = uid
  · rw [if_pos hprobe, if_pos (Or.inl hprobe)]
  · rw [if_neg hprobe]
    refine if_congr ?_ rfl rfl
    exact (or_iff_right hprobe).symm

theorem carrier?_detach (h : t.Working) (hm : t.Mirrored) (uid probe : EntityUid) :
    (t.detach uid).carrier? probe =
      if probe = uid ∨ t.carrier? probe = some uid then none else t.carrier? probe := by
  rw [detach, carrier?_unload (h.release uid) (hm.release h uid), carrier?_release h]
  by_cases hprobe : probe = uid
  · rw [if_pos hprobe, if_pos (Or.inl hprobe)]
    rfl
  · rw [if_neg hprobe]
    refine if_congr ?_ rfl rfl
    exact (or_iff_right hprobe).symm

/-! ## How many carries there are -/

/-- A new carry adds one row to each table. -/
theorem size_link {carrier carried : EntityUid} (hfree : t.Free carrier carried) :
    (t.link carrier carried).carrying.rows.size = t.carrying.rows.size + 1 ∧
      (t.link carrier carried).beingCarried.rows.size = t.beingCarried.rows.size + 1 :=
  ⟨Table.size_insert_of_get?_eq_none _ (load?_eq_none_iff.1 hfree.2.1),
    Table.size_insert_of_get?_eq_none _ (carrier?_eq_none_iff.1 hfree.2.2)⟩

/-- The release of a carried entity takes one row from each of two mirrored tables. -/
theorem size_release (h : t.Working) (hm : t.Mirrored) (carried : EntityUid) :
    (t.release carried).tables.carrying.rows.size + (t.carrier? carried).isSome.toNat =
        t.carrying.rows.size ∧
      (t.release carried).tables.beingCarried.rows.size + (t.carrier? carried).isSome.toNat =
        t.beingCarried.rows.size := by
  cases hcarrier : t.carrier? carried with
  | none =>
    rw [release_of_none h hcarrier]
    exact ⟨rfl, rfl⟩
  | some carrier =>
    have hload : t.load? carrier = some carried := (hm.load_iff _ _).2 hcarrier
    rw [release_of_some h hcarrier]
    simp only [unlink, if_pos hload]
    exact ⟨Table.size_erase_of_get?_eq_some (load?_eq_some_iff.1 hload),
      Table.size_erase_of_get?_eq_some (carrier?_eq_some_iff.1 hcarrier)⟩

theorem size_unload (h : t.Working) (hm : t.Mirrored) (carrier : EntityUid) :
    (t.unload carrier).carrying.rows.size + (t.load? carrier).isSome.toNat =
        t.carrying.rows.size ∧
      (t.unload carrier).beingCarried.rows.size + (t.load? carrier).isSome.toNat =
        t.beingCarried.rows.size := by
  unfold unload
  cases hload : t.load? carrier with
  | none => exact ⟨rfl, rfl⟩
  | some carried =>
    have hsize := size_release h hm carried
    rw [(hm.load_iff _ _).1 hload] at hsize
    exact hsize

/-- Every carry that an entity leaves is one row in each table. -/
theorem size_detach (h : t.Working) (hm : t.Mirrored) (uid : EntityUid) :
    (t.detach uid).carrying.rows.size +
          ((t.carrier? uid).isSome.toNat + (t.load? uid).isSome.toNat) =
        t.carrying.rows.size ∧
      (t.detach uid).beingCarried.rows.size +
          ((t.carrier? uid).isSome.toNat + (t.load? uid).isSome.toNat) =
        t.beingCarried.rows.size := by
  have hrelease := size_release h hm uid
  have hunload := size_unload (h.release uid) (hm.release h uid) uid
  rw [load?_release_self h hm] at hunload
  rw [detach]
  omega

end Station.CarryTables
