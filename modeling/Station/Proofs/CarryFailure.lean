import Station.Proofs.Carry

/-!
# Carries on tables that fail

Starting and ending a carry call two stores up to four times, and any of these calls may fail, also
after the first write. Nothing is taken back then. `HalfBegun` and `HalfReleased` say what stands
after the first write of each: a carrier with a load that does not know its carrier, and a dropped
entity that its carrier still points at.

A failure leaves the tables as they were, or in one of these two states exactly if the first write
went through, and it raises no drop (`failure_keeps_all_but_the_first_write`). Tables in memory
refuse reads and writes alike, which spares them the first state (`begin?_inMemory_of_error`) and
not the second.
-/

namespace Station

/-- A store that answers every read and refuses every write. -/
structure SealedTable (α : Type) where
  /-- The components, by ascending entity. -/
  rows : Table EntityUid α

instance (α : Type) : ComponentStore (SealedTable α) α where
  insert _ _ _ := .error ComponentTable.unwritable
  get store uid := .ok (store.rows.get? uid)
  update _ _ _ := .error ComponentTable.unwritable
  remove _ _ := .error ComponentTable.unwritable
  entities store := .ok store.rows.keys

namespace CarryTables

variable {γ β : Type} [ComponentStore γ Carrying] [ComponentStore β BeingCarried]

/-- Of a carry that both tables let start, the carrier's side is written and the other one is not.
-/
structure HalfBegun (t t' : CarryTables γ β) (carrier carried : EntityUid) : Prop where
  ne : carrier ≠ carried
  carrier_idle : ComponentStore.contains t.carrying carrier = .ok false
  carried_loose : ComponentStore.contains t.beingCarried carried = .ok false
  carrier_written :
    ∃ old, ComponentStore.insert t.carrying carrier ⟨carried⟩ = .ok (old, t'.carrying)
  carried_kept : t'.beingCarried = t.beingCarried

/-- Of a carry, the side of the carried entity is taken away and the carrier's side is not. -/
structure HalfReleased (t t' : CarryTables γ β) (carrier carried : EntityUid) : Prop where
  carried_removed :
    ComponentStore.remove t.beingCarried carried = .ok (some ⟨carrier⟩, t'.beingCarried)
  carrier_kept : t'.carrying = t.carrying

variable {t t' : CarryTables γ β} {carrier carried : EntityUid}

/-! ## Starting a carry -/

/-- Before the first write, a failure changes nothing. -/
theorem begin?_of_not_halfBegun (h : ∀ u, ¬ t.HalfBegun u carrier carried) :
    ∃ error, t.begin? carrier carried = (.error error, t) := by
  unfold begin?
  split
  · exact ⟨_, rfl⟩
  rename_i hne
  split
  · exact ⟨_, rfl⟩
  · exact ⟨_, rfl⟩
  rename_i hidle
  split
  · exact ⟨_, rfl⟩
  · exact ⟨_, rfl⟩
  rename_i hloose
  split
  · exact ⟨_, rfl⟩
  rename_i old carrying hwritten
  exact absurd ⟨hne, hidle, hloose, ⟨old, hwritten⟩, rfl⟩ (h { t with carrying })

/-- After the first write, the second one decides, and its failure leaves the first. -/
theorem HalfBegun.begin?_eq (h : t.HalfBegun t' carrier carried) :
    t.begin? carrier carried =
      match ComponentStore.insert t.beingCarried carried ⟨carrier⟩ with
      | .error failure => (.error (.store failure), t')
      | .ok (_, beingCarried) => (.ok (), { t' with beingCarried }) := by
  obtain ⟨hne, hidle, hloose, ⟨old, hwritten⟩, hkept⟩ := h
  have htables : ({ t with carrying := t'.carrying } : CarryTables γ β) = t' := by
    cases t'
    exact congrArg _ hkept.symm
  cases hsecond : ComponentStore.insert t.beingCarried carried ⟨carrier⟩ with
  | error failure => simp only [begin?, if_neg hne, hidle, hloose, hwritten, hsecond, htables]
  | ok inserted => simp only [begin?, if_neg hne, hidle, hloose, hwritten, hsecond]

/-- A carry that fails to start leaves the tables as they were, unless it was the second write that
failed. -/
theorem begin?_of_error {error : CarryError} (h : t.begin? carrier carried = (.error error, t')) :
    (t' = t ∧ ∀ u, ¬ t.HalfBegun u carrier carried) ∨
      t.HalfBegun t' carrier carried ∧
        ∃ failure, ComponentStore.insert t.beingCarried carried ⟨carrier⟩ = .error failure ∧
          error = .store failure := by
  by_cases hhalf : ∃ u, t.HalfBegun u carrier carried
  · obtain ⟨u, hu⟩ := hhalf
    rw [hu.begin?_eq] at h
    split at h
    · rename_i failure hsecond
      obtain ⟨herror, rfl⟩ := Prod.mk.inj h
      exact Or.inr ⟨hu, failure, hsecond, (Except.error.inj herror).symm⟩
    · cases (Prod.mk.inj h).1
  · rw [not_exists] at hhalf
    obtain ⟨other, heq⟩ := begin?_of_not_halfBegun hhalf
    exact Or.inl ⟨(Prod.mk.inj (h.symm.trans heq)).2, hhalf⟩

/-- In memory a table refuses reads and writes alike, so a carry that fails to start changes
nothing. -/
theorem begin?_inMemory_of_error {t t' : InMemory} {error : CarryError}
    (h : t.begin? carrier carried = (.error error, t')) : t' = t := by
  rcases begin?_of_error h with ⟨hkept, -⟩ | ⟨hhalf, failure, hfail, -⟩
  · exact hkept
  · have hloose : t.beingCarried.contains carried = .ok false := hhalf.carried_loose
    have hworking : t.beingCarried.broken = false := by
      cases hbroken : t.beingCarried.broken with
      | false => rfl
      | true => cases (ComponentTable.contains_of_broken hbroken carried).symm.trans hloose
    have hinsert := ComponentTable.insert_of_working hworking carried ⟨carrier⟩
    cases hinsert.symm.trans hfail

/-! ## Ending a carry -/

/-- Before the row of the carried entity is gone, nothing is changed and nothing raised. -/
theorem release_of_not_halfReleased (h : ∀ u carrier, ¬ t.HalfReleased u carrier carried) :
    (∃ error, t.release carried = ⟨.error error, t, []⟩) ∨
      ∃ beingCarried, ComponentStore.remove t.beingCarried carried = .ok (none, beingCarried) ∧
        t.release carried = ⟨.ok false, { t with beingCarried }, []⟩ := by
  unfold release
  split
  · exact Or.inl ⟨_, rfl⟩
  · rename_i beingCarried hremoved
    exact Or.inr ⟨beingCarried, hremoved, rfl⟩
  · rename_i link beingCarried hremoved
    exact absurd ⟨hremoved, rfl⟩ (h { t with beingCarried } link.carrier)

/-- After that, the calls on the carrier's side decide, and their failure raises no drop. -/
theorem HalfReleased.release_eq (h : t.HalfReleased t' carrier carried) :
    t.release carried =
      match clearCarrier t.carrying carrier carried with
      | .error error => ⟨.error error, t', []⟩
      | .ok carrying => ⟨.ok true, { t' with carrying }, [⟨carried, { t' with carrying }⟩]⟩ := by
  obtain ⟨hremoved, hkept⟩ := h
  have htables : ({ t with beingCarried := t'.beingCarried } : CarryTables γ β) = t' := by
    cases t'
    exact congrArg (CarryTables.mk · _) hkept.symm
  cases hcleared : clearCarrier t.carrying carrier carried with
  | error failure => simp only [release, hremoved, hcleared, htables]
  | ok carrying => simp only [release, hremoved, hcleared]

/-- A carry that fails to end leaves the tables as they were, unless it was a call on the carrier's
side that failed. No drop is raised. -/
theorem release_of_error {error : StoreError} {drops : List (Drop γ β)}
    (h : t.release carried = ⟨.error error, t', drops⟩) :
    drops = [] ∧
      ((t' = t ∧ ∀ u other, ¬ t.HalfReleased u other carried) ∨
        ∃ other, t.HalfReleased t' other carried ∧
          clearCarrier t.carrying other carried = .error error) := by
  by_cases hhalf : ∃ u other, t.HalfReleased u other carried
  · obtain ⟨u, other, hu⟩ := hhalf
    rw [hu.release_eq] at h
    split at h
    · rename_i failure hclear
      obtain ⟨herror, rfl, hdrops⟩ := Release.mk.inj h
      rw [Except.error.inj herror] at hclear
      exact ⟨hdrops.symm, Or.inr ⟨other, hu, hclear⟩⟩
    · cases (Release.mk.inj h).1
  · simp only [not_exists] at hhalf
    rcases release_of_not_halfReleased hhalf with ⟨failure, heq⟩ | ⟨rest, -, heq⟩
    · obtain ⟨-, htables, hdrops⟩ := Release.mk.inj (h.symm.trans heq)
      exact ⟨hdrops, Or.inl ⟨htables, hhalf⟩⟩
    · cases (Release.mk.inj (h.symm.trans heq)).1

/-! ## What a failure leaves -/

/-- When a carry fails to start, the tables are as they were unless it was the second write that
failed, which leaves the first. When one fails to end, the tables are as they were unless it was a
call on the carrier's side that failed, which leaves the carried entity without its row. No drop is
raised by a failure. -/
theorem failure_keeps_all_but_the_first_write (t : CarryTables γ β)
    (carrier carried : EntityUid) :
    (∀ error t', t.begin? carrier carried = (.error error, t') →
      (t' = t ∧ ∀ u, ¬ t.HalfBegun u carrier carried) ∨
        t.HalfBegun t' carrier carried ∧
          ∃ failure, ComponentStore.insert t.beingCarried carried ⟨carrier⟩ = .error failure ∧
            error = .store failure) ∧
      ∀ error t' drops, t.release carried = ⟨.error error, t', drops⟩ →
        drops = [] ∧
          ((t' = t ∧ ∀ u other, ¬ t.HalfReleased u other carried) ∨
            ∃ other, t.HalfReleased t' other carried ∧
              clearCarrier t.carrying other carried = .error error) :=
  ⟨fun _ _ => begin?_of_error, fun _ _ _ => release_of_error⟩

/-- The first entity carries the second, and the table of the carriers broke afterwards. -/
def torn : InMemory where
  carrying := { rows := .ofList [(⟨1⟩, ⟨⟨2⟩⟩)], broken := true }
  beingCarried := { rows := .ofList [(⟨2⟩, ⟨⟨1⟩⟩)] }

/-- Nobody carries anybody, and the table of the carried entities takes no row. -/
def halfSealed : CarryTables (ComponentTable Carrying) (SealedTable BeingCarried) :=
  ⟨{}, ⟨.empty⟩⟩

/-- A carry that fails to end has lost a row, and one that fails to start has won one. -/
theorem failure_is_not_all_or_nothing :
    (torn.release ⟨2⟩).answer = .error ComponentTable.unreadable ∧
      torn.IsCarriedBy ⟨2⟩ ⟨1⟩ ∧ ¬ (torn.release ⟨2⟩).tables.IsCarriedBy ⟨2⟩ ⟨1⟩ ∧
      (halfSealed.begin? ⟨1⟩ ⟨2⟩).1 = .error (.store ComponentTable.unwritable) ∧
      halfSealed.carrying.rows.get? ⟨1⟩ = none ∧
      (halfSealed.begin? ⟨1⟩ ⟨2⟩).2.carrying.rows.get? ⟨1⟩ = some ⟨⟨2⟩⟩ := by
  decide

end CarryTables

end Station
