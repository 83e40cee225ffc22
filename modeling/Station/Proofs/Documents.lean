import Station.Catalogue

/-!
# What is kept of a document

A document that is read keeps the type that it names and the id that it is written with, whether it
fits that type or is kept untyped. The two ways to the id are different: a document that fits has
its `id` field decoded, any other one is asked for the value under that key. They agree where no key
of the document has a tag (`field_documentFields`), because a tagged text is a field but no key to
look up.
-/

namespace Station

open Yaml (Value)

namespace Yaml.Value

/-- The type that a document names. -/
def typeName? (v : Value) : Option String := (v.get? "type").bind string?

/-- The text that a document has under `id`. -/
def writtenId? (v : Value) : Option String := (v.get? "id").bind string?

/-- Whether a value has a tag around it. -/
def isTagged : Value → Bool
  | .tagged .. => true
  | _ => false

/-- No key of a mapping has a tag of its own. -/
def KeysUntagged (v : Value) : Prop :=
  ∀ entries, v.untag = .mapping entries → ∀ entry ∈ entries, entry.1.isTagged = false

theorem string?_eq_some_iff_of_isTagged_eq_false {v : Value} (h : v.isTagged = false)
    {text : String} : v.string? = some text ↔ v = .string text := by
  cases v with
  | atom value => cases value <;> simp [string?, untag]
  | sequence items => simp [string?, untag]
  | mapping entries => simp [string?, untag]
  | tagged tag value => cases h

/-- Only the key itself leads to the value under a text. -/
theorem lookup_cons_of_ne {text : String} {entry : Value × Value} (h : entry.1 ≠ .string text)
    (rest : List (Value × Value)) : lookup text (entry :: rest) = lookup text rest := by
  obtain ⟨key, value⟩ := entry
  rw [lookup.eq_def]
  split
  · rename_i heq
    cases heq
  · rename_i heq
    obtain ⟨hentry, rfl⟩ := List.cons.inj heq
    obtain ⟨rfl, rfl⟩ := Prod.mk.inj hentry
    exact if_neg fun hsame => h (by rw [hsame])
  · rename_i heq
    rw [(List.cons.inj heq).2]

end Yaml.Value

namespace Decode

/-! ## The fields of a record -/

section Fields

variable {field? : Value → Option (Option Nat)} {entries : List (Value × Value)}
  {found : List (Nat × Value)}

/-- What the first entry adds to the fields of the others. -/
theorem fields_cons_eq_some {key value : Value}
    (h : fields field? ((key, value) :: entries) = some found) :
    ∃ later, fields field? entries = some later ∧
      (field? key = some none ∧ found = later ∨
        ∃ number, field? key = some (some number) ∧ found = (number, value) :: later) := by
  rw [fields] at h
  obtain ⟨later, hlater, h⟩ := Option.bind_eq_some_iff.1 h
  obtain ⟨number?, hkey, h⟩ := Option.bind_eq_some_iff.1 h
  refine ⟨later, hlater, ?_⟩
  cases number? with
  | none => exact Or.inl ⟨hkey, (Option.some.inj h).symm⟩
  | some number =>
    right
    simp only at h
    split at h
    · -- a field that is written twice is refused
      cases h
    · exact ⟨number, hkey, (Option.some.inj h).symm⟩

theorem field_cons_self (number : Nat) (value : Value) (rest : List (Nat × Value)) :
    field number ((number, value) :: rest) = some value := by
  simp [field]

theorem field_cons_of_ne {number other : Nat} (h : other ≠ number) (value : Value)
    (rest : List (Nat × Value)) : field number ((other, value) :: rest) = field number rest := by
  simp [field, h]

end Fields

/-- Without tags, a field of a document is the value under its name. -/
theorem field_fields {first : String} {names : List String} {entries : List (Value × Value)}
    (huntagged : ∀ entry ∈ entries, entry.1.isTagged = false) {found : List (Nat × Value)}
    (h : fields (documentKey (first :: names)) entries = some found) :
    field 0 found = Value.lookup first entries := by
  induction entries generalizing found with
  | nil =>
    obtain rfl := Option.some.inj h
    rfl
  | cons entry rest ih =>
    obtain ⟨key, value⟩ := entry
    have hkey : key.isTagged = false := huntagged _ List.mem_cons_self
    obtain ⟨later, hlater, hfound⟩ := fields_cons_eq_some h
    have hrest := ih (fun other hother => huntagged other (List.mem_cons_of_mem _ hother)) hlater
    rcases hfound with ⟨hnone, rfl⟩ | ⟨number, hnumber, rfl⟩
    · -- the key is that of another field
      obtain ⟨text, htext, hindex⟩ := Option.map_eq_some_iff.1 hnone
      rw [hrest, Value.lookup_cons_of_ne]
      rintro rfl
      obtain rfl := Option.some.inj htext
      simp [List.idxOf?_cons] at hindex
    · obtain ⟨text, htext, hindex⟩ := Option.map_eq_some_iff.1 hnumber
      obtain rfl := (Value.string?_eq_some_iff_of_isTagged_eq_false hkey).1 htext
      by_cases hfirst : text = first
      · obtain rfl : number = 0 := by
          simpa [List.idxOf?_cons, hfirst, eq_comm] using hindex
        rw [field_cons_self, Value.lookup, if_pos hfirst]
      · have hne : number ≠ 0 := by
          rintro rfl
          simp [List.idxOf?_cons, Ne.symm hfirst] at hindex
        rw [field_cons_of_ne hne, hrest, Value.lookup, if_neg hfirst]

/-- The first field of a document, if it is called `id`, holds the id that is written there. -/
theorem field_documentFields {v : Value} (huntagged : v.KeysUntagged) {names : List String}
    {found : List (Nat × Value)} (h : documentFields ("id" :: names) v = some found) :
    (field 0 found).bind Value.string? = v.writtenId? := by
  obtain ⟨entries, hentries, hfound⟩ := Option.bind_eq_some_iff.1 h
  rw [Value.writtenId?, Value.get?]
  rw [entries?] at hentries
  split at hentries
  · rename_i heq
    obtain rfl := Option.some.inj hentries
    rw [field_fields (huntagged _ heq) hfound, heq]
  · rename_i heq
    obtain rfl := Option.some.inj hentries
    obtain rfl := Option.some.inj hfound
    rw [heq]
    rfl
  · cases hentries

/-- A record that starts with its `id` has the id that is written there. -/
theorem writtenId?_of_record {α : Type} {id : α → String} {names : List String}
    {more : List (Nat × Value) → String → Option α}
    (hmore : ∀ found text a, more found text = some a → id a = text) {v : Value} {a : α}
    (huntagged : v.KeysUntagged)
    (h : (do
      let found ← documentFields ("id" :: names) v
      let text ← (← field 0 found).string?
      more found text) = some a) :
    v.writtenId? = some (id a) := by
  obtain ⟨found, hfound, h⟩ := Option.bind_eq_some_iff.1 h
  obtain ⟨value, hvalue, h⟩ := Option.bind_eq_some_iff.1 h
  obtain ⟨text, htext, h⟩ := Option.bind_eq_some_iff.1 h
  rw [← field_documentFields huntagged hfound, hvalue, Option.bind_some, htext,
    hmore found text a h]

theorem id_job {v : Value} {p : JobPrototype} (huntagged : v.KeysUntagged)
    (h : job? v = some p) : v.writtenId? = some p.id := by
  refine writtenId?_of_record (fun found text a hmore => ?_) huntagged h
  obtain ⟨name, -, hmore⟩ := Option.bind_eq_some_iff.1 hmore
  rw [← Option.some.inj hmore]

theorem id_soundCollection {v : Value} {p : SoundCollectionPrototype}
    (huntagged : v.KeysUntagged) (h : soundCollection? v = some p) :
    v.writtenId? = some p.id := by
  refine writtenId?_of_record (fun found text a hmore => ?_) huntagged h
  obtain ⟨files, -, hmore⟩ := Option.bind_eq_some_iff.1 hmore
  rw [← Option.some.inj hmore]

theorem id_mindFilter {v : Value} {p : MindFilterPrototype} (huntagged : v.KeysUntagged)
    (h : mindFilter? v = some p) : v.writtenId? = some p.id := by
  refine writtenId?_of_record (fun found text a hmore => ?_) huntagged h
  obtain ⟨blacklist, -, hmore⟩ := Option.bind_eq_some_iff.1 hmore
  rw [← Option.some.inj hmore]

theorem id_entity {v : Value} {p : EntityPrototype} (huntagged : v.KeysUntagged)
    (h : entity? v = some p) : v.writtenId? = some p.id := by
  refine writtenId?_of_record (fun found text a hmore => ?_) huntagged h
  obtain ⟨name, -, hmore⟩ := Option.bind_eq_some_iff.1 hmore
  obtain ⟨parents, -, hmore⟩ := Option.bind_eq_some_iff.1 hmore
  obtain ⟨components, -, hmore⟩ := Option.bind_eq_some_iff.1 hmore
  rw [← Option.some.inj hmore]

end Decode

/-! ## Documents -/

namespace Prototype

variable {kind : String} {v : Value} {p : Prototype}

/-- A document that fits a type is of that type. -/
theorem kind_of_ofValue? (h : ofValue? kind v = some p) : p.kind = kind := by
  rw [ofValue?.eq_def] at h
  split at h
  · obtain ⟨job, -, rfl⟩ := Option.map_eq_some_iff.1 h
    rfl
  · obtain ⟨collection, -, rfl⟩ := Option.map_eq_some_iff.1 h
    rfl
  · obtain ⟨entity, -, rfl⟩ := Option.map_eq_some_iff.1 h
    rfl
  · obtain ⟨filter, -, rfl⟩ := Option.map_eq_some_iff.1 h
    rfl
  · obtain rfl := Option.some.inj h
    rfl

/-- A document that fits a type has the id that it is written with. -/
theorem id?_of_ofValue? (huntagged : v.KeysUntagged) (h : ofValue? kind v = some p) :
    p.id? = v.writtenId? := by
  rw [ofValue?.eq_def] at h
  split at h
  · obtain ⟨job, hjob, rfl⟩ := Option.map_eq_some_iff.1 h
    exact (Decode.id_job huntagged hjob).symm
  · obtain ⟨collection, hcollection, rfl⟩ := Option.map_eq_some_iff.1 h
    exact (Decode.id_soundCollection huntagged hcollection).symm
  · obtain ⟨entity, hentity, rfl⟩ := Option.map_eq_some_iff.1 h
    exact (Decode.id_entity huntagged hentity).symm
  · obtain ⟨filter, hfilter, rfl⟩ := Option.map_eq_some_iff.1 h
    exact (Decode.id_mindFilter huntagged hfilter).symm
  · obtain rfl := Option.some.inj h
    rfl

/-- A document is read exactly if it names a type. -/
theorem ofDocument?_eq_none_iff : ofDocument? v = none ↔ v.typeName? = none := by
  rw [ofDocument?, Value.typeName?]
  cases v.get? "type" with
  | none => simp
  | some value => cases htext : value.string? <;> simp [htext]

/-- What a loaded prototype keeps of its document: the type and the id, and all of it if it fits the
type. -/
structure Keeps (p : Prototype) (v : Value) : Prop where
  kind_eq : v.typeName? = some p.kind
  id?_eq : v.KeysUntagged → p.id? = v.writtenId?
  of_fits : ∀ q, ofValue? p.kind v = some q → p = q
  of_not_fits : ofValue? p.kind v = none → p = untyped p.kind v

theorem keeps_of_ofDocument? (h : ofDocument? v = some p) : p.Keeps v := by
  rw [ofDocument?] at h
  obtain ⟨value, hvalue, h⟩ := Option.bind_eq_some_iff.1 h
  obtain ⟨kind, hkind, h⟩ := Option.bind_eq_some_iff.1 h
  have htype : v.typeName? = some kind := by rw [Value.typeName?, hvalue, Option.bind_some, hkind]
  cases hfits : ofValue? kind v with
  | none =>
    obtain rfl : untyped kind v = p := by simpa [hfits] using h
    refine ⟨htype, fun _ => rfl, fun q hq => ?_, fun _ => rfl⟩
    cases hfits.symm.trans hq
  | some q =>
    obtain rfl : q = p := by simpa [hfits] using h
    have hq := kind_of_ofValue? hfits
    refine ⟨by rw [htype, hq], fun huntagged => id?_of_ofValue? huntagged hfits, ?_, ?_⟩
    · intro r hr
      rw [hq, hfits] at hr
      exact Option.some.inj hr
    · intro hnone
      rw [hq, hfits] at hnone
      cases hnone

end Prototype

end Station
