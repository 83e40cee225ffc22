import Station.Proofs.Redefinition
import Station.Proofs.Schema

/-!
# Prototypes as values

A prototype that is written as a value and read under its kind is the same prototype again
(`Prototype.ofValue?_toValue`). Nothing of the decoder is opened here: what is written is a document
without tags (`Prototype.isDocument_toValue`) that has the shape of the prototype
(`Prototype.fits_toValue`), and the decoder gives what fits (`Prototype.ofValue?_eq_some_iff`).

So each writer has two lemmas, that its values are plain and that they are what was written. Lists
of components and of parents are followed item by item.
-/

namespace Station

open Yaml (Value)
open Schema

namespace Encode

/-! ## Values without tags -/

@[simp] theorem plain_text (text : String) : (Value.string text).Plain := .atom _

@[simp] theorem plain_optional {α : Type} {write : α → Value} (h : ∀ a, (write a).Plain)
    (a? : Option α) : (optional write a?).Plain := by
  cases a? with
  | none => exact .atom .null
  | some a => exact h a

@[simp] theorem plain_sound (s : SoundSpecifier) : (sound s).Plain := by
  cases s <;> exact Value.plain_record (by simp) (by simp)

@[simp] theorem plain_component (entry : ComponentEntry) : (component entry).Plain := by
  cases entry <;> exact Value.plain_record (by simp) (by simp)

@[simp] theorem plain_parents (p : Parents) : (parents p).Plain := by
  cases p with
  | one id => exact plain_text id
  | many ids => exact Value.plain_texts ids

@[simp] theorem plain_components (entries : List ComponentEntry) :
    (Value.sequence (entries.map component)).Plain := by
  refine .sequence fun item hitem => ?_
  obtain ⟨entry, -, rfl⟩ := List.mem_map.1 hitem
  exact plain_component entry

/-! ## Values that are what was written -/

theorem optionalField_optional {α : Type} {Is : Value → α → Prop} {write : α → Value}
    (h : ∀ a, Is (write a) a) (a? : Option α) :
    OptionalField Is (some (optional write a?)) a? := by
  cases a? with
  | none => exact .null
  | some a => exact .given (h a)

theorem forall₂_map {α : Type} {Is : Value → α → Prop} {write : α → Value}
    (h : ∀ a, Is (write a) a) (as : List α) : List.Forall₂ Is (as.map write) as :=
  List.forall₂_map_left_iff.2 (List.forall₂_same.2 fun a _ => h a)

theorem listField_map {α : Type} {Is : Value → α → Prop} {write : α → Value}
    (h : ∀ a, Is (write a) a) (as : List α) :
    ListField Is (some (.sequence (as.map write))) as :=
  .given (forall₂_map h as)

theorem isText_string (text : String) : IsText (.string text) text := rfl

theorem isParents_parents (p : Parents) : IsParents (parents p) p := by
  cases p with
  | one id => exact isText_string id
  | many ids => exact ⟨_, rfl, forall₂_map isText_string ids⟩

theorem isSound_sound (s : SoundSpecifier) : IsSound (sound s) s := by
  cases s with
  | path path => exact ⟨⟨_, rfl⟩, rfl⟩
  | collection id => exact ⟨⟨_, rfl⟩, nofun, rfl⟩

theorem isComponent_component (entry : ComponentEntry) : IsComponent (component entry) entry := by
  cases entry with
  | felinid overrides =>
    exact ⟨⟨_, rfl⟩, rfl, optionalField_optional isText_string _,
      optionalField_optional isText_string _, optionalField_optional isSound_sound _⟩
  | unknown => exact ⟨⟨_, rfl⟩, "Unknown", rfl, by decide⟩

end Encode

namespace Prototype

open Encode

variable {p : Prototype}

theorem kind_mem_kinds (htyped : p.isTyped = true) : p.kind ∈ kinds := by
  cases p with
  | other kind id => cases htyped
  | job | soundCollection | entity | mindFilter => simp [kind, kinds]

theorem plain_toValue (p : Prototype) : p.toValue.Plain := by
  cases p <;> exact Value.plain_record (by simp) (by simp)

/-- A prototype is written as a document. -/
theorem isDocument_toValue (p : Prototype) : IsDocument p.toValue where
  plain := plain_toValue p
  mapping := by cases p <;> exact ⟨_, rfl⟩
  components := by
    cases p with
    | entity p =>
      rintro items ⟨⟩ item hitem
      obtain ⟨entry, -, rfl⟩ := List.mem_map.1 hitem
      exact (isComponent_component entry).1
    | job | soundCollection | mindFilter | other => exact nofun

/-- A prototype is written in the shape of its kind. -/
theorem fits_toValue (htyped : p.isTyped = true) : Fits p.toValue p := by
  cases p with
  | job p => exact ⟨rfl, optionalField_optional isText_string _⟩
  | soundCollection p => exact ⟨rfl, listField_map isText_string _⟩
  | mindFilter p => exact ⟨rfl, listField_map isText_string _⟩
  | entity p =>
    exact ⟨rfl, optionalField_optional isText_string _, optionalField_optional isParents_parents _,
      listField_map isComponent_component _⟩
  | other kind id => cases htyped

theorem ofValue?_toValue (htyped : p.isTyped = true) : ofValue? p.kind p.toValue = some p :=
  (ofValue?_eq_some_iff (isDocument_toValue p) (kind_mem_kinds htyped)).2
    ⟨rfl, fits_toValue htyped⟩

/-- The kind of a prototype is written beside its fields. -/
theorem get?_type_toValue (htyped : p.isTyped = true) :
    p.toValue.get? "type" = some (.string p.kind) := by
  cases p with
  | other kind id => cases htyped
  | job | soundCollection | entity | mindFilter => rfl

theorem toValue_inj {q : Prototype} (hp : p.isTyped = true) (hq : q.isTyped = true)
    (h : p.toValue = q.toValue) : p = q := by
  have hkind : p.kind = q.kind := by
    have htype := get?_type_toValue hp
    rw [h, get?_type_toValue hq] at htype
    simpa [eq_comm] using htype
  have hread : some p = some q :=
    calc some p = ofValue? p.kind p.toValue := (ofValue?_toValue hp).symm
      _ = ofValue? q.kind q.toValue := by rw [hkind, h]
      _ = some q := ofValue?_toValue hq
  exact Option.some.inj hread

/-- A prototype with the shape of a kind, written as a value, is read under its kind and is the same
prototype again. So no two of them are written alike. -/
theorem reading_undoes_writing (htyped : p.isTyped = true) :
    ofValue? p.kind p.toValue = some p ∧
      ∀ q, q.isTyped = true → q.toValue = p.toValue → q = p :=
  ⟨ofValue?_toValue htyped, fun _ hq h => toValue_inj hq htyped h⟩

/-- A cat with three components and some parents. -/
def cat (parents : Option Parents) : Prototype :=
  .entity
    { id := "Cat", parents,
      components := [.felinid { eatSound := some (.path "eat.ogg") }, .unknown, .felinid {}] }

/-- A cat with one parent is read back, and is not written like one with a list of one parent. -/
theorem reading_undoes_writing_cat :
    ofValue? "entity" (cat (some (.one "Animal"))).toValue = some (cat (some (.one "Animal"))) ∧
      (cat (some (.many ["Animal"]))).toValue ≠ (cat (some (.one "Animal"))).toValue := by
  obtain ⟨hread, honly⟩ := reading_undoes_writing (p := cat (some (.one "Animal"))) rfl
  exact ⟨hread, fun h => absurd (honly _ rfl h) (by decide)⟩

end Prototype

end Station
