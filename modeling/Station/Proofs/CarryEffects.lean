import Station.Proofs.CarryFailure

/-!
# What starting and ending a carry touch

Whoever holds the carry tables may write to them, so a row may name a carrier that carries nothing,
a carrier that carries something else by now, or the carried entity itself. No two tables are ruled
out here. A release goes by the row of the carried entity alone: that row is what it removes, and
the carrier's row goes along exactly if it points back (`Parted`). Its drop is raised at the end,
when both tables are as the release leaves them.

Only a broken table makes a release fail. The table of the carried entities is the first to be
written, so if it is broken nothing happens (`release_of_unwritable`). If it works and the table of
the carriers is broken, the carried entity has lost its row by then (`HalfParted`).

Starting a carry is all or nothing in memory, and the release undoes it exactly
(`release_of_begun`).
-/

namespace Station.CarryTables

variable {t u : InMemory} {carrier carried : EntityUid}

/-- The tables differ in the carry of one entity by one carrier: its own row is gone, and so is the
carrier's if it pointed back. -/
structure Parted (t u : InMemory) (carrier carried : EntityUid) : Prop where
  carrier?_eq : ∀ probe, u.carrier? probe = if probe = carried then none else t.carrier? probe
  load?_eq : ∀ probe,
    u.load? probe =
      if probe = carrier ∧ t.load? carrier = some carried then none else t.load? probe
  working : u.Working

/-- The tables differ in the row of one carried entity, and the table of the carriers is broken. -/
structure HalfParted (t u : InMemory) (carried : EntityUid) : Prop where
  carrier?_eq : ∀ probe, u.carrier? probe = if probe = carried then none else t.carrier? probe
  carrying_eq : u.carrying = t.carrying
  broken : u.carrying.broken = true
  working : u.beingCarried.broken = false

/-! ## Ending a carry -/

/-- Nothing is written to a broken table, so nothing is written to the other one either. -/
theorem release_of_unwritable (h : t.beingCarried.broken = true) (carried : EntityUid) :
    t.release carried = ⟨.error ComponentTable.unwritable, t, []⟩ := by
  have hremove : ComponentStore.remove t.beingCarried carried = _ :=
    ComponentTable.remove_of_broken h carried
  simp only [release, hremove]

theorem clearCarrier_of_broken (h : t.carrying.broken = true) (carrier carried : EntityUid) :
    clearCarrier t.carrying carrier carried = .error ComponentTable.unreadable := by
  have hget : ComponentStore.get t.carrying carrier = _ := ComponentTable.get_of_broken h carrier
  simp only [clearCarrier, hget]

/-- The carrier's row cannot be looked at in a broken table, and the other row is gone by then. -/
theorem release_of_unreadable (hcarrying : t.carrying.broken = true)
    (hcarried : t.beingCarried.broken = false) (hsome : t.carrier? carried = some carrier) :
    ∃ u, t.release carried = ⟨.error ComponentTable.unreadable, u, []⟩ ∧
      t.HalfParted u carried := by
  let cut : InMemory :=
    { t with
      beingCarried := { t.beingCarried with rows := t.beingCarried.rows.erase carried } }
  have hremove : ComponentStore.remove t.beingCarried carried = _ :=
    ComponentTable.remove_of_working hcarried carried
  rw [carrier?_eq_some_iff.1 hsome] at hremove
  refine ⟨cut, ?_, ?_, rfl, hcarrying, hcarried⟩
  · simp only [release, hremove, clearCarrier_of_broken hcarrying]
    rfl
  · intro probe
    simp only [carrier?, cut, Table.get?_erase]
    split <;> rfl

theorem Working.parted_unlink (h : t.Working) (carrier carried : EntityUid) :
    t.Parted (t.unlink carrier carried) carrier carried :=
  ⟨carrier?_unlink t carrier carried, load?_unlink t carrier carried, h.unlink carrier carried⟩

/-! ## Starting a carry -/

/-- A carry does not start on a broken table. -/
theorem begin?_of_not_working (h : ¬ t.Working) (carrier carried : EntityUid) :
    ∃ error, t.begin? carrier carried = (.error error, t) := by
  by_cases hself : carrier = carried
  · exact ⟨.selfCarry carrier, by rw [begin?, if_pos hself]⟩
  -- the table of the carriers is asked first, and the other one only about an idle carrier
  cases hcarrying : t.carrying.broken with
  | true =>
    have hcontains : ComponentStore.contains t.carrying carrier = _ :=
      ComponentTable.contains_of_broken hcarrying carrier
    refine ⟨.store ComponentTable.unreadable, ?_⟩
    simp only [begin?, if_neg hself, hcontains]
  | false =>
    have hcarried : t.beingCarried.broken = true :=
      Bool.of_not_eq_false fun hworking => h ⟨hcarrying, hworking⟩
    have hbusy : ComponentStore.contains t.carrying carrier = _ :=
      ComponentTable.contains_of_working hcarrying carrier
    have hcontains : ComponentStore.contains t.beingCarried carried = _ :=
      ComponentTable.contains_of_broken hcarried carried
    cases hload : t.carrying.rows.contains carrier with
    | true =>
      refine ⟨.alreadyCarrying carrier, ?_⟩
      simp only [begin?, if_neg hself, hbusy, hload]
    | false =>
      refine ⟨.store ComponentTable.unreadable, ?_⟩
      simp only [begin?, if_neg hself, hbusy, hload, hcontains]

/-- A carry starts exactly on working tables that know neither the carrier's load nor the carried
entity's carrier. -/
theorem begin?_ok_iff (t : InMemory) (carrier carried : EntityUid) :
    (t.begin? carrier carried).1 = .ok () ↔ t.Working ∧ t.Free carrier carried := by
  constructor
  · intro hok
    by_cases hworking : t.Working
    · by_cases hfree : t.Free carrier carried
      · exact ⟨hworking, hfree⟩
      · obtain ⟨error, herror⟩ := begin?_of_not_free hworking hfree
        rw [herror] at hok
        cases hok
    · obtain ⟨error, herror⟩ := begin?_of_not_working hworking carrier carried
      rw [herror] at hok
      cases hok
  · rintro ⟨hworking, hfree⟩
    rw [begin?_of_free hworking hfree]

/-- A carry that may start leaves no trace once it ended. -/
theorem unlink_link (hfree : t.Free carrier carried) :
    (t.link carrier carried).unlink carrier carried = t := by
  obtain ⟨-, hload, hcarrier⟩ := hfree
  have hpoints : (t.link carrier carried).load? carrier = some carried := by
    rw [load?_link, if_pos rfl]
  rw [unlink, if_pos hpoints]
  simp only [link, Table.erase_insert_of_get?_eq_none _ (load?_eq_none_iff.1 hload),
    Table.erase_insert_of_get?_eq_none _ (carrier?_eq_none_iff.1 hcarrier)]

/-- The release of a carry that has just started takes it back. -/
theorem release_of_begun (h : t.begin? carrier carried = (.ok (), u)) :
    u.release carried = ⟨.ok true, t, [⟨carried, t⟩]⟩ := by
  obtain ⟨hworking, hfree⟩ := (begin?_ok_iff t carrier carried).1 (congrArg Prod.fst h)
  have hu : u = t.link carrier carried :=
    (Prod.mk.inj (h.symm.trans (begin?_of_free hworking hfree))).2
  have hsome : (t.link carrier carried).carrier? carried = some carrier := by
    rw [carrier?_link, if_pos rfl]
  rw [hu, release_of_some (hworking.link carrier carried) hsome, unlink_link hfree]

/-! ## All tables in memory -/

/-- Of any two tables in memory, a release answers whether the entity has a carrier by its own row,
parts it from that carrier and nobody else from anybody, and raises one drop, on the entity, with
the tables as it leaves them. Without a carrier it changes nothing and raises nothing. It fails if
the table of the carried entities is broken, which changes nothing, and if there is a carrier and
the table of the carriers is broken, which removes the row of the carried entity and nothing else.

A carry that does not start changes nothing, and the release of one that does leaves the tables of
before. -/
theorem release_touches_one_carry (t : InMemory) (carried : EntityUid) :
    (t.beingCarried.broken = false → t.carrier? carried = none →
        t.release carried = ⟨.ok false, t, []⟩) ∧
      (∀ carrier, t.Working → t.carrier? carried = some carrier →
        ∃ u, t.release carried = ⟨.ok true, u, [⟨carried, u⟩]⟩ ∧ t.Parted u carrier carried) ∧
      (t.beingCarried.broken = true →
        t.release carried = ⟨.error ComponentTable.unwritable, t, []⟩) ∧
      (∀ carrier, t.carrying.broken = true → t.beingCarried.broken = false →
        t.carrier? carried = some carrier →
        ∃ u, t.release carried = ⟨.error ComponentTable.unreadable, u, []⟩ ∧
          t.HalfParted u carried) ∧
      (∀ carrier, (t.begin? carrier carried).1 = .ok () ↔ t.Working ∧ t.Free carrier carried) ∧
      (∀ carrier error u, t.begin? carrier carried = (.error error, u) → u = t) ∧
      ∀ carrier u, t.begin? carrier carried = (.ok (), u) →
        u.release carried = ⟨.ok true, t, [⟨carried, t⟩]⟩ := by
  refine ⟨fun h => release_of_loose h, ?_, fun h => release_of_unwritable h carried, ?_,
    fun carrier => begin?_ok_iff t carrier carried, fun _ _ _ h => begin?_inMemory_of_error h,
    fun _ _ h => release_of_begun h⟩
  · intro carrier hworking hsome
    exact ⟨_, release_of_some hworking hsome, hworking.parted_unlink carrier carried⟩
  · intro carrier hcarrying hcarried hsome
    exact release_of_unreadable hcarrying hcarried hsome

/-- Besides a carry that both tables tell of: an entity whose carrier carries another one, one that
carries itself, and one whose carrier carries nothing. -/
def tangled : InMemory where
  carrying := { rows := .ofList [(⟨1⟩, ⟨⟨2⟩⟩), (⟨4⟩, ⟨⟨4⟩⟩)] }
  beingCarried :=
    { rows := .ofList [(⟨2⟩, ⟨⟨1⟩⟩), (⟨3⟩, ⟨⟨1⟩⟩), (⟨4⟩, ⟨⟨4⟩⟩), (⟨5⟩, ⟨⟨6⟩⟩)] }

theorem release_touches_one_carry_tangled :
    tangled.release ⟨6⟩ = ⟨.ok false, tangled, []⟩ ∧
      (∃ u, tangled.release ⟨2⟩ = ⟨.ok true, u, [⟨⟨2⟩, u⟩]⟩ ∧ tangled.Parted u ⟨1⟩ ⟨2⟩) ∧
      (∃ u, tangled.release ⟨3⟩ = ⟨.ok true, u, [⟨⟨3⟩, u⟩]⟩ ∧ tangled.Parted u ⟨1⟩ ⟨3⟩) ∧
      (∃ u, tangled.release ⟨4⟩ = ⟨.ok true, u, [⟨⟨4⟩, u⟩]⟩ ∧ tangled.Parted u ⟨4⟩ ⟨4⟩) ∧
      (∃ u, tangled.release ⟨5⟩ = ⟨.ok true, u, [⟨⟨5⟩, u⟩]⟩ ∧ tangled.Parted u ⟨6⟩ ⟨5⟩) ∧
      (tangled.link ⟨5⟩ ⟨6⟩).release ⟨6⟩ = ⟨.ok true, tangled, [⟨⟨6⟩, tangled⟩]⟩ ∧
      ∃ u, torn.release ⟨2⟩ = ⟨.error ComponentTable.unreadable, u, []⟩ ∧
        torn.HalfParted u ⟨2⟩ := by
  have hworking : tangled.Working := ⟨rfl, rfl⟩
  have hbegun : tangled.begin? ⟨5⟩ ⟨6⟩ = (.ok (), tangled.link ⟨5⟩ ⟨6⟩) :=
    begin?_of_free hworking ⟨by decide, by decide, by decide⟩
  refine ⟨?_, ?_, ?_, ?_, ?_, ?_, ?_⟩
  · exact (release_touches_one_carry tangled ⟨6⟩).1 rfl (by decide)
  · exact (release_touches_one_carry tangled ⟨2⟩).2.1 ⟨1⟩ hworking (by decide)
  · exact (release_touches_one_carry tangled ⟨3⟩).2.1 ⟨1⟩ hworking (by decide)
  · exact (release_touches_one_carry tangled ⟨4⟩).2.1 ⟨4⟩ hworking (by decide)
  · exact (release_touches_one_carry tangled ⟨5⟩).2.1 ⟨6⟩ hworking (by decide)
  · exact (release_touches_one_carry tangled ⟨6⟩).2.2.2.2.2.2 ⟨5⟩ _ hbegun
  · exact (release_touches_one_carry torn ⟨2⟩).2.2.2.1 ⟨1⟩ rfl rfl (by decide)

/-- The tables of `torn` after the other one broke as well. -/
def shut : InMemory :=
  { torn with beingCarried := { torn.beingCarried with broken := true } }

/-- The release of an entity that its carrier points at may fail, keep the carrier's row and raise
nothing. So may the release of an entity without a carrier. -/
theorem release_is_not_always_answered :
    torn.carrier? ⟨2⟩ = some ⟨1⟩ ∧ torn.load? ⟨1⟩ = some ⟨2⟩ ∧
      (torn.release ⟨2⟩).answer = .error ComponentTable.unreadable ∧
      (torn.release ⟨2⟩).drops.map Drop.uid = [] ∧
      (torn.release ⟨2⟩).tables.load? ⟨1⟩ = some ⟨2⟩ ∧
      shut.carrier? ⟨3⟩ = none ∧
      (shut.release ⟨3⟩).answer = .error ComponentTable.unwritable := by
  decide

end Station.CarryTables
