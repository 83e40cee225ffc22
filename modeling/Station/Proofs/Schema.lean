import Mathlib.Data.List.Forall2
import Mathlib.Data.List.Nodup
import Station.Proofs.Documents
import Station.Prototype.Encode

/-!
# The shapes of documents

What a document of a known kind has to look like is said by `Fits` through the values under its
keys, field by field, without the decoder. On documents without tags (`Value.Plain`) whose
components are mappings the decoder accepts exactly what fits, and gives the fields that are written
(`Prototype.ofValue?_eq_some_iff`).

The decoder reads a record in two steps: it numbers the fields, and then asks for a field by its
number. `exists_fields` says once what both steps do to entries with texts for keys. After that each
reader is a matter of what it does with the values under its keys.
-/

namespace Station

open Yaml (Value)

namespace Yaml.Value

/-- A value without tags. The keys of a mapping are texts, each of them once. -/
inductive Plain : Value → Prop
  /-- A scalar. -/
  | atom (value : Atom) : Plain (.atom value)
  /-- A sequence of plain values. -/
  | sequence {items : List Value} (each : ∀ item ∈ items, Plain item) : Plain (.sequence items)
  /-- A mapping from texts to plain values. -/
  | mapping {entries : List (Value × Value)}
      (texts : ∀ entry ∈ entries, ∃ text, entry.1 = .string text)
      (once : (entries.map Prod.fst).Nodup) (each : ∀ entry ∈ entries, Plain entry.2) :
      Plain (.mapping entries)

/-- A value is a mapping. -/
def IsMapping (v : Value) : Prop := ∃ entries, v = .mapping entries

/-- Two values hold the same under some keys. -/
def AgreeOn (names : List String) (v w : Value) : Prop := ∀ name ∈ names, v.get? name = w.get? name

theorem AgreeOn.nil {v w : Value} : AgreeOn [] v w := nofun

theorem AgreeOn.cons {name : String} {names : List String} {v w : Value}
    (h : v.get? name = w.get? name) (hs : AgreeOn names v w) : AgreeOn (name :: names) v w :=
  List.forall_mem_cons.2 ⟨h, hs⟩

end Yaml.Value

/-! ## What fits -/

namespace Schema

/-- A field that may be missing or nothing. -/
inductive OptionalField {α : Type} (Is : Value → α → Prop) : Option Value → Option α → Prop
  /-- It is missing. -/
  | absent : OptionalField Is none none
  /-- It is nothing. -/
  | null : OptionalField Is (some .null) none
  /-- It is given. -/
  | given {v : Value} {a : α} (is : Is v a) : OptionalField Is (some v) (some a)

/-- A list that may be missing or nothing, which leaves it empty. -/
inductive ListField {α : Type} (Is : Value → α → Prop) : Option Value → List α → Prop
  /-- It is missing. -/
  | absent : ListField Is none []
  /-- It is nothing. -/
  | null : ListField Is (some .null) []
  /-- It is given, item by item. -/
  | given {items : List Value} {as : List α} (each : List.Forall₂ Is items as) :
      ListField Is (some (.sequence items)) as

/-- A text. -/
def IsText (v : Value) (text : String) : Prop := v = .string text

/-- The parents of an entity: a text or a list of texts. -/
def IsParents (v : Value) : Parents → Prop
  | .one id => IsText v id
  | .many ids => ∃ items, v = .sequence items ∧ List.Forall₂ IsText items ids

/-- A sound: a mapping with a text under `path`, or else with one under `collection`. -/
def IsSound (v : Value) (sound : SoundSpecifier) : Prop :=
  v.IsMapping ∧
    match sound with
    | .path path => v.get? "path" = some (.string path)
    | .collection id =>
      (∀ path, v.get? "path" ≠ some (.string path)) ∧ v.get? "collection" = some (.string id)

/-- An entry of `components`: a mapping with a text under `type`. That of a felinid has the fields
of a felinid, any other one may hold what it likes. -/
def IsComponent (v : Value) (component : ComponentEntry) : Prop :=
  v.IsMapping ∧
    match component with
    | .felinid overrides =>
      v.get? "type" = some (.string "Felinid") ∧
        OptionalField IsText (v.get? "hairballPrototype") overrides.hairballPrototype ∧
        OptionalField IsText (v.get? "hairballAction") overrides.hairballAction ∧
        OptionalField IsSound (v.get? "eatSound") overrides.eatSound
    | .unknown => ∃ type, v.get? "type" = some (.string type) ∧ type ≠ "Felinid"

/-- A document has the shape of the kind of a prototype, and its fields are those of the
prototype. -/
def Fits (v : Value) : Prototype → Prop
  | .job p =>
    v.get? "id" = some (.string p.id) ∧ OptionalField IsText (v.get? "name") p.name
  | .soundCollection p =>
    v.get? "id" = some (.string p.id) ∧ ListField IsText (v.get? "files") p.files
  | .mindFilter p =>
    v.get? "id" = some (.string p.id) ∧ ListField IsText (v.get? "blacklist") p.blacklist
  | .entity p =>
    v.get? "id" = some (.string p.id) ∧ OptionalField IsText (v.get? "name") p.name ∧
      OptionalField IsParents (v.get? "parent") p.parents ∧
      ListField IsComponent (v.get? "components") p.components
  | .other .. => False

/-- Sounds that differ in nothing but keys that a sound does not have. -/
def SameSound (v w : Value) : Prop :=
  v = w ∨ v.IsMapping ∧ w.IsMapping ∧ Value.AgreeOn ["path", "collection"] v w

/-- Entries of `components` of one type that differ in nothing but keys that the type does not
have. -/
structure SameComponent (v w : Value) : Prop where
  /-- The first one is a mapping. -/
  left : v.IsMapping
  /-- The second one is a mapping. -/
  right : w.IsMapping
  /-- They are of one type. -/
  type_eq : v.get? "type" = w.get? "type"
  /-- As felinids they have the same fields. -/
  fields : v.get? "type" = some (.string "Felinid") →
    Value.AgreeOn ["hairballPrototype", "hairballAction"] v w ∧
      Option.Rel SameSound (v.get? "eatSound") (w.get? "eatSound")

/-- Lists of components of which each two are the same. -/
def SameComponents (v w : Value) : Prop :=
  v = w ∨ ∃ items others, v = .sequence items ∧ w = .sequence others ∧
    List.Forall₂ SameComponent items others

/-- The keys of a kind, without those whose values have keys of their own. -/
def ownKeys : String → List String
  | "job" => ["id", "name"]
  | "soundCollection" => ["id", "files"]
  | "mindFilter" => ["id", "blacklist"]
  | "entity" => ["id", "name", "parent"]
  | _ => []

/-- Documents that differ, anywhere, in nothing but keys that their kind does not have there. -/
structure SameDocument (kind : String) (v w : Value) : Prop where
  /-- They agree on their own keys. -/
  own : Value.AgreeOn (ownKeys kind) v w
  /-- Entities have the same components. -/
  components : kind = "entity" →
    Option.Rel SameComponents (v.get? "components") (w.get? "components")

/-- The kinds that have a shape. -/
def kinds : List String := ["job", "soundCollection", "mindFilter", "entity"]

/-- A document without tags whose components, if it has a list of them, are mappings. -/
structure IsDocument (v : Value) : Prop where
  /-- It has no tags. -/
  plain : v.Plain
  /-- It is a mapping. -/
  mapping : v.IsMapping
  /-- So are its components. -/
  components : ∀ items, v.get? "components" = some (.sequence items) →
    ∀ item ∈ items, item.IsMapping

end Schema

/-! ## Keys outside a shape -/

namespace Schema

variable {v w : Value}

theorem isSound_congr (h : SameSound v w) (sound : SoundSpecifier) :
    IsSound v sound ↔ IsSound w sound := by
  rcases h with rfl | ⟨hv, hw, hagree⟩
  · rfl
  · have hpath := hagree "path" (by simp)
    have hcollection := hagree "collection" (by simp)
    cases sound <;> simp [IsSound, hv, hw, hpath, hcollection]

theorem optionalField_congr {α : Type} {Is : Value → α → Prop} {Same : Value → Value → Prop}
    {given other : Option Value} (h : Option.Rel Same given other)
    (his : ∀ v w, Same v w → ∀ a, Is v a ↔ Is w a)
    (hnull : ∀ v w, Same v w → (v = .null ↔ w = .null)) (a? : Option α) :
    OptionalField Is given a? ↔ OptionalField Is other a? := by
  cases h with
  | none => rfl
  | some hsame =>
    constructor
    · rintro (_ | _ | is)
      · rw [(hnull _ _ hsame).1 rfl]
        exact .null
      · exact .given ((his _ _ hsame _).1 is)
    · rintro (_ | _ | is)
      · rw [(hnull _ _ hsame).2 rfl]
        exact .null
      · exact .given ((his _ _ hsame _).2 is)

theorem eq_null_iff_of_sameSound (h : SameSound v w) : v = .null ↔ w = .null := by
  rcases h with rfl | ⟨⟨_, rfl⟩, ⟨_, rfl⟩, -⟩
  · rfl
  · exact ⟨nofun, nofun⟩

theorem isComponent_congr (h : SameComponent v w) (component : ComponentEntry) :
    IsComponent v component ↔ IsComponent w component := by
  cases component with
  | unknown => simp [IsComponent, h.left, h.right, h.type_eq]
  | felinid overrides =>
    by_cases htype : v.get? "type" = some (.string "Felinid")
    · obtain ⟨hagree, hsound⟩ := h.fields htype
      have hsounds := optionalField_congr hsound (fun _ _ => isSound_congr)
        (fun _ _ => eq_null_iff_of_sameSound) overrides.eatSound
      simp [IsComponent, h.left, h.right, h.type_eq, hsounds, hagree "hairballPrototype",
        hagree "hairballAction"]
    · have hother : w.get? "type" ≠ some (.string "Felinid") := h.type_eq ▸ htype
      simp [IsComponent, htype, hother]

theorem forall₂_isComponent_congr {items others : List Value}
    (h : List.Forall₂ SameComponent items others) (components : List ComponentEntry) :
    List.Forall₂ IsComponent items components ↔ List.Forall₂ IsComponent others components := by
  induction h generalizing components with
  | nil => rfl
  | cons hsame _ ih =>
    cases components with
    | nil => simp
    | cons component rest => simp [isComponent_congr hsame component, ih rest]

theorem listField_congr {given other : Option Value} (h : Option.Rel SameComponents given other)
    (components : List ComponentEntry) :
    ListField IsComponent given components ↔ ListField IsComponent other components := by
  cases h with
  | none => rfl
  | some hsame =>
    rcases hsame with rfl | ⟨items, others, rfl, rfl, heach⟩
    · rfl
    · have hiff := forall₂_isComponent_congr heach components
      constructor
      · rintro (_ | _ | each)
        exact .given (hiff.1 each)
      · rintro (_ | _ | each)
        exact .given (hiff.2 each)

/-- What fits does not hang on keys outside the shape. -/
theorem fits_congr {p : Prototype} (h : SameDocument p.kind v w) : Fits v p ↔ Fits w p := by
  obtain ⟨hown, hcomponents⟩ := h
  cases p with
  | job p =>
    have hown : Value.AgreeOn ["id", "name"] v w := hown
    simp [Fits, hown "id", hown "name"]
  | soundCollection p =>
    have hown : Value.AgreeOn ["id", "files"] v w := hown
    simp [Fits, hown "id", hown "files"]
  | mindFilter p =>
    have hown : Value.AgreeOn ["id", "blacklist"] v w := hown
    simp [Fits, hown "id", hown "blacklist"]
  | entity p =>
    have hown : Value.AgreeOn ["id", "name", "parent"] v w := hown
    have hcomponents := listField_congr (hcomponents rfl) p.components
    simp [Fits, hown "id", hown "name", hown "parent", hcomponents]
  | other kind id => rfl

end Schema

/-! ## Plain values -/

namespace Yaml.Value

variable {v : Value} {entries : List (Value × Value)} {name : String}

/-- A record of plain values is plain if its names are different. -/
theorem plain_record {entries : List (String × Value)} (once : (entries.map Prod.fst).Nodup)
    (each : ∀ entry ∈ entries, entry.2.Plain) : (Encode.record entries).Plain := by
  change (mapping (entries.map fun entry => (string entry.1, entry.2))).Plain
  refine .mapping ?_ ?_ ?_
  · intro entry hentry
    obtain ⟨written, -, rfl⟩ := List.mem_map.1 hentry
    exact ⟨written.1, rfl⟩
  · rw [List.map_map]
    have hkeys : Prod.fst ∘ (fun entry : String × Value => (string entry.1, entry.2)) =
        string ∘ Prod.fst := rfl
    rw [hkeys, ← List.map_map]
    refine List.Nodup.map (fun a b h => ?_) once
    cases h
    rfl
  · intro entry hentry
    obtain ⟨written, hmem, rfl⟩ := List.mem_map.1 hentry
    exact each written hmem

@[simp] theorem plain_texts (items : List String) : (Encode.texts items).Plain := by
  refine .sequence fun item hitem => ?_
  obtain ⟨text, -, rfl⟩ := List.mem_map.1 hitem
  exact .atom _

theorem Plain.isTagged (h : v.Plain) : v.isTagged = false := by
  cases h <;> rfl

theorem Plain.string?_eq_some_iff (h : v.Plain) {text : String} :
    v.string? = some text ↔ v = .string text :=
  string?_eq_some_iff_of_isTagged_eq_false h.isTagged

theorem lookup_cons_self (name : String) (value : Value) (rest : List (Value × Value)) :
    lookup name ((.string name, value) :: rest) = some value := if_pos rfl

/-- What is found under a key is one of the entries. -/
theorem mem_of_lookup (h : lookup name entries = some v) : (.string name, v) ∈ entries := by
  induction entries with
  | nil => cases h
  | cons entry rest ih =>
    by_cases hentry : entry.1 = .string name
    · obtain ⟨key, value⟩ := entry
      obtain rfl : key = .string name := hentry
      rw [lookup_cons_self] at h
      rw [Option.some.inj h]
      exact List.mem_cons_self
    · rw [lookup_cons_of_ne hentry] at h
      exact List.mem_cons_of_mem _ (ih h)

theorem lookup_eq_none_of_notMem (h : .string name ∉ entries.map Prod.fst) :
    lookup name entries = none := by
  cases hlookup : lookup name entries with
  | none => rfl
  | some v => exact absurd (List.mem_map_of_mem (f := Prod.fst) (mem_of_lookup hlookup)) h

theorem Plain.of_get? (h : v.Plain) {value : Value} (hvalue : v.get? name = some value) :
    value.Plain := by
  cases h with
  | atom | sequence => cases hvalue
  | mapping texts once each => exact each _ (mem_of_lookup hvalue)

/-- A key is looked up as before if its entries are kept. -/
theorem lookup_filter {keep : Value × Value → Bool} (h : ∀ value, keep (.string name, value) = true)
    (entries : List (Value × Value)) : lookup name (entries.filter keep) = lookup name entries := by
  induction entries with
  | nil => rfl
  | cons entry rest ih =>
    by_cases hentry : entry.1 = .string name
    · obtain ⟨key, value⟩ := entry
      obtain rfl : key = .string name := hentry
      rw [List.filter_cons_of_pos (h value), lookup_cons_self, lookup_cons_self]
    · rw [lookup_cons_of_ne hentry]
      by_cases hkept : keep entry = true
      · rw [List.filter_cons_of_pos hkept, lookup_cons_of_ne hentry, ih]
      · rw [List.filter_cons_of_neg hkept, ih]

/-- Without some of its entries a plain mapping is plain. -/
theorem Plain.filter (h : (Value.mapping entries).Plain) (keep : Value × Value → Bool) :
    (Value.mapping (entries.filter keep)).Plain := by
  cases h with
  | mapping texts once each =>
    have hsub : (entries.filter keep).Sublist entries := List.filter_sublist
    exact .mapping (fun entry hentry => texts entry (hsub.subset hentry))
      ((hsub.map Prod.fst).nodup once) fun entry hentry => each entry (hsub.subset hentry)

end Yaml.Value

namespace Decode

open Yaml.Value (Plain lookup)

theorem allTagFree_of_forall {items : List Value} (h : ∀ item ∈ items, tagFree item = true) :
    allTagFree items = true := by
  induction items with
  | nil => rw [allTagFree]
  | cons item rest ih =>
    rw [allTagFree, h item List.mem_cons_self,
      ih fun other hother => h other (List.mem_cons_of_mem _ hother)]
    rfl

theorem entriesTagFree_of_forall {entries : List (Value × Value)}
    (h : ∀ entry ∈ entries, tagFree entry.1 = true ∧ tagFree entry.2 = true) :
    entriesTagFree entries = true := by
  induction entries with
  | nil => rw [entriesTagFree]
  | cons entry rest ih =>
    obtain ⟨key, value⟩ := entry
    obtain ⟨hkey, hvalue⟩ := h _ List.mem_cons_self
    rw [entriesTagFree, hkey, hvalue,
      ih fun other hother => h other (List.mem_cons_of_mem _ hother)]
    rfl

theorem tagFree_of_plain {v : Value} (h : v.Plain) : tagFree v = true := by
  induction h with
  | atom value => rw [tagFree]
  | sequence each ih =>
    rw [tagFree]
    exact allTagFree_of_forall ih
  | mapping texts once each ih =>
    rw [tagFree]
    refine entriesTagFree_of_forall fun entry hentry => ⟨?_, ih entry hentry⟩
    obtain ⟨text, htext⟩ := texts entry hentry
    rw [htext, tagFree]

/-! ## Fields -/

theorem idxOf?_inj {names : List String} {a b : String} {i : Nat} (ha : names.idxOf? a = some i)
    (hb : names.idxOf? b = some i) : a = b := by
  obtain ⟨-, rfl, -⟩ := List.idxOf?_eq_some_iff.1 ha
  obtain ⟨-, rfl, -⟩ := List.idxOf?_eq_some_iff.1 hb
  rfl

theorem any_eq_false_of_field {number : Nat} {found : List (Nat × Value)}
    (h : field number found = none) : found.any (·.1 == number) = false := by
  rw [field, Option.map_eq_none_iff, List.find?_eq_none] at h
  rw [List.any_eq_false]
  exact h

/-- A record with texts for keys is read, and has under each name what is written there. -/
theorem exists_fields (field? : Value → Option (Option Nat)) {names : List String}
    (hfield : ∀ text, field? (.string text) = some (names.idxOf? text))
    {entries : List (Value × Value)} (htexts : ∀ entry ∈ entries, ∃ text, entry.1 = .string text)
    (honce : (entries.map Prod.fst).Nodup) :
    ∃ found, fields field? entries = some found ∧
      ∀ name i, names.idxOf? name = some i → field i found = lookup name entries := by
  induction entries with
  | nil => exact ⟨[], rfl, fun _ _ _ => rfl⟩
  | cons entry rest ih =>
    obtain ⟨key, value⟩ := entry
    obtain ⟨text, rfl⟩ := htexts (key, value) List.mem_cons_self
    obtain ⟨hnew, hrest⟩ := List.nodup_cons.1 honce
    obtain ⟨later, hlater, hfound⟩ :=
      ih (fun other hother => htexts other (List.mem_cons_of_mem _ hother)) hrest
    have hlookup : ∀ name, name ≠ text →
        lookup name ((.string text, value) :: rest) = lookup name rest := fun name hname => by
      rw [lookup, if_neg (Ne.symm hname)]
    cases hindex : names.idxOf? text with
    | none =>
      -- a foreign key is passed over, and no name asks for what is under it
      refine ⟨later, by simp [fields, hlater, hfield, hindex], fun name i hi => ?_⟩
      rw [hfound name i hi, hlookup]
      rintro rfl
      cases hindex.symm.trans hi
    | some number =>
      -- the key is written once, so its number is still free and the record is not refused
      have habsent : field number later = none :=
        (hfound text number hindex).trans (Value.lookup_eq_none_of_notMem hnew)
      have honly := any_eq_false_of_field habsent
      refine ⟨(number, value) :: later, by simp [fields, hlater, hfield, hindex, honly],
        fun name i hi => ?_⟩
      by_cases hname : name = text
      · subst hname
        obtain rfl := Option.some.inj (hindex.symm.trans hi)
        rw [field_cons_self, Value.lookup_cons_self]
      · have hne : number ≠ i := by
          rintro rfl
          exact hname (idxOf?_inj hi hindex)
        rw [field_cons_of_ne hne, hfound name i hi, hlookup name hname]

/-- The fields of a document. -/
theorem exists_documentFields {v : Value} (hplain : v.Plain) (hmapping : v.IsMapping)
    (names : List String) :
    ∃ found, documentFields names v = some found ∧
      ∀ name i, names.idxOf? name = some i → field i found = v.get? name := by
  obtain ⟨entries, rfl⟩ := hmapping
  cases hplain with
  | mapping texts once each => exact exists_fields _ (fun _ => rfl) texts once

/-! ## Readers of fields -/

section Readers

open Schema

variable {α : Type} {read : Value → Option α} {Is : Value → α → Prop} {given : Option Value}

theorem optional_eq_some_iff {a? : Option α}
    (hread : ∀ v, given = some v → ∀ a, read v = some a ↔ Is v a) (hnull : ∀ a, ¬ Is .null a) :
    optional read given = some a? ↔ OptionalField Is given a? := by
  rw [optional.eq_def]
  split
  · constructor
    · intro h
      obtain rfl := Option.some.inj h
      exact .absent
    · rintro ⟨⟩
      rfl
  · constructor
    · intro h
      obtain rfl := Option.some.inj h
      exact .null
    · intro h
      cases h with
      | null => rfl
      | given is => exact absurd is (hnull _)
  · rename_i v hpresent
    rw [Option.map_eq_some_iff]
    constructor
    · rintro ⟨a, ha, rfl⟩
      exact .given ((hread v rfl a).1 ha)
    · intro h
      cases h with
      | null => exact absurd rfl hpresent
      | given is => exact ⟨_, (hread v rfl _).2 is, rfl⟩

theorem mapM_eq_some_iff {items : List Value} {as : List α}
    (hread : ∀ item ∈ items, ∀ a, read item = some a ↔ Is item a) :
    items.mapM read = some as ↔ List.Forall₂ Is items as := by
  induction items generalizing as with
  | nil => simp [eq_comm]
  | cons item rest ih =>
    have hrest := fun other hother => hread other (List.mem_cons_of_mem item hother)
    simp only [List.mapM_cons, Option.bind_eq_bind, Option.bind_eq_some_iff, Option.pure_def,
      Option.some.injEq, List.forall₂_cons_left_iff, hread item List.mem_cons_self]
    constructor
    · rintro ⟨a, ha, as, has, rfl⟩
      exact ⟨a, as, ha, (ih hrest).1 has, rfl⟩
    · rintro ⟨a, as, ha, has, rfl⟩
      exact ⟨a, ha, as, (ih hrest).2 has, rfl⟩

theorem list_eq_some_iff {as : List α} (hplain : ∀ v, given = some v → v.isTagged = false)
    (hread : ∀ items, given = some (.sequence items) →
      ∀ item ∈ items, ∀ a, read item = some a ↔ Is item a) :
    list read given = some as ↔ ListField Is given as := by
  cases given with
  | none =>
    constructor
    · intro h
      obtain rfl := Option.some.inj h
      exact .absent
    · rintro ⟨⟩
      rfl
  | some v =>
    cases v with
    | tagged tag v => cases hplain _ rfl
    | sequence items =>
      refine (mapM_eq_some_iff (hread items rfl)).trans ⟨.given, ?_⟩
      rintro ⟨⟩
      assumption
    | mapping entries => exact ⟨nofun, nofun⟩
    | atom value =>
      cases value with
      | null =>
        constructor
        · intro h
          obtain rfl := Option.some.inj h
          exact .null
        · rintro ⟨⟩
          rfl
      | bool | int | float | string => exact ⟨nofun, nofun⟩

theorem plainText?_eq_some_iff {v : Value} {text : String} :
    plainText? v = some text ↔ IsText v text := by
  rw [plainText?.eq_def, IsText]
  split
  · simp
  · rename_i hother
    exact ⟨nofun, fun h => absurd h (hother text)⟩

theorem parents?_eq_some_iff {v : Value} {parents : Parents} :
    parents? v = some parents ↔ IsParents v parents := by
  rw [parents?.eq_def]
  split
  · cases parents with
    | one id => simp [IsParents, IsText]
    | many ids => exact ⟨nofun, nofun⟩
  · rename_i items
    have hitems : ∀ ids, items.mapM plainText? = some ids ↔ List.Forall₂ IsText items ids :=
      fun ids => mapM_eq_some_iff fun _ _ _ => plainText?_eq_some_iff
    cases parents with
    | one id => simp [IsParents, IsText]
    | many ids => simp [IsParents, hitems]
  · rename_i htext hsequence
    cases parents with
    | one id => exact ⟨nofun, fun h => absurd h (htext id)⟩
    | many ids => exact ⟨nofun, fun ⟨items, h, _⟩ => absurd h (hsequence items)⟩

/-- What is written under a key is read as a text if it is one. -/
theorem exists_text_iff {v : Value} (hplain : v.Plain) (name : String) (P : String → Prop) :
    (∃ t, v.get? name = some t ∧ ∃ text, t.string? = some text ∧ P text) ↔
      ∃ text, v.get? name = some (.string text) ∧ P text := by
  constructor
  · rintro ⟨t, ht, text, htext, h⟩
    obtain rfl := (hplain.of_get? ht).string?_eq_some_iff.1 htext
    exact ⟨text, ht, h⟩
  · rintro ⟨text, htext, h⟩
    exact ⟨_, htext, text, rfl, h⟩

/-- A text under a key is read whatever else there is. -/
theorem soleText?_eq_some_iff {entries : List (Value × Value)}
    (hplain : (Value.mapping entries).Plain) (name text : String) :
    soleText? name entries = some text ↔
      (Value.mapping entries).get? name = some (.string text) := by
  cases hplain with
  | mapping texts once each =>
    obtain ⟨found, hfields, hfound⟩ :=
      exists_fields (componentKey [name]) (fun _ => rfl) texts once
    have hname : field 0 found = lookup name entries := hfound name 0 (by simp [List.idxOf?_cons])
    rw [soleText?, hfields, Option.bind_eq_bind, Option.bind_some, hname, Option.bind_eq_bind,
      Option.bind_eq_some_iff]
    constructor
    · rintro ⟨v, hv, htext⟩
      rw [← plainText?_eq_some_iff.1 htext]
      exact hv
    · intro h
      exact ⟨.string text, h, rfl⟩

theorem sound?_eq_some_iff {v : Value} (hplain : v.Plain) {sound : SoundSpecifier} :
    sound? v = some sound ↔ IsSound v sound := by
  cases v with
  | mapping entries =>
    have htext := soleText?_eq_some_iff hplain
    have hmapping : (Value.mapping entries).IsMapping := ⟨entries, rfl⟩
    rw [sound?]
    cases hpath : soleText? "path" entries with
    | some path =>
      rw [htext] at hpath
      cases sound with
      | path other => simp [IsSound, hmapping, hpath]
      | collection id => simp [IsSound, hmapping, hpath]
    | none =>
      -- anything but a text under `path` leaves the choice to the collection
      have hnone : ∀ path, (Value.mapping entries).get? "path" ≠ some (.string path) := by
        intro path h
        cases hpath.symm.trans ((htext "path" path).2 h)
      cases sound with
      | path other => simp [IsSound, hmapping, hnone]
      | collection id => simp [IsSound, hmapping, hnone, htext]
  | atom | sequence | tagged => exact ⟨nofun, fun ⟨⟨_, h⟩, _⟩ => nomatch h⟩

/-! ## Components -/

/-- The fields of a felinid, without the type. -/
theorem exists_felinidFields {entries : List (Value × Value)}
    (hplain : (Value.mapping entries).Plain) :
    ∃ found,
      fields (componentKey felinidNames) (entries.filter fun entry => !isTypeKey entry.1)
        = some found ∧
      field 0 found = lookup "hairballPrototype" entries ∧
      field 1 found = lookup "hairballAction" entries ∧
      field 2 found = lookup "eatSound" entries := by
  cases hplain.filter fun entry => !isTypeKey entry.1 with
  | mapping texts once each =>
    obtain ⟨found, hfields, hfound⟩ :=
      exists_fields (componentKey felinidNames) (fun _ => rfl) texts once
    refine ⟨found, hfields, ?_, ?_, ?_⟩
    · rw [hfound "hairballPrototype" 0 (by decide), Value.lookup_filter (by simp [isTypeKey])]
    · rw [hfound "hairballAction" 1 (by decide), Value.lookup_filter (by simp [isTypeKey])]
    · rw [hfound "eatSound" 2 (by decide), Value.lookup_filter (by simp [isTypeKey])]

theorem felinid?_eq_some_iff {v : Value} (hplain : v.Plain) {found : List (Nat × Value)}
    (hprototype : field 0 found = v.get? "hairballPrototype")
    (haction : field 1 found = v.get? "hairballAction") (hsound : field 2 found = v.get? "eatSound")
    (overrides : FelinidOverrides) :
    felinid? found = some overrides ↔
      OptionalField IsText (v.get? "hairballPrototype") overrides.hairballPrototype ∧
        OptionalField IsText (v.get? "hairballAction") overrides.hairballAction ∧
        OptionalField IsSound (v.get? "eatSound") overrides.eatSound := by
  have htext : ∀ given text?, optional plainText? given = some text? ↔
      OptionalField IsText given text? := fun given text? =>
    optional_eq_some_iff (fun _ _ _ => plainText?_eq_some_iff) (fun _ => nofun)
  have heat : ∀ sound?', optional sound? (v.get? "eatSound") = some sound?' ↔
      OptionalField IsSound (v.get? "eatSound") sound?' := fun sound?' =>
    optional_eq_some_iff (fun value hvalue _ => sound?_eq_some_iff (hplain.of_get? hvalue))
      (fun _ ⟨⟨_, h⟩, _⟩ => nomatch h)
  simp only [felinid?, hprototype, haction, hsound, Option.bind_eq_bind, Option.bind_eq_some_iff,
    Option.pure_def, Option.some.injEq, htext, heat]
  constructor
  · rintro ⟨prototype, h0, action, h1, sound, h2, rfl⟩
    exact ⟨h0, h1, h2⟩
  · rintro ⟨h0, h1, h2⟩
    exact ⟨_, h0, _, h1, _, h2, rfl⟩

theorem component?_eq_some_iff {v : Value} (hplain : v.Plain) (hmapping : v.IsMapping)
    {component : ComponentEntry} :
    component? v = some component ↔ IsComponent v component := by
  obtain ⟨entries, rfl⟩ := hmapping
  obtain ⟨found, hfields, h0, h1, h2⟩ := exists_felinidFields hplain
  have hfelinid := felinid?_eq_some_iff hplain h0 h1 h2
  have hfree := tagFree_of_plain (hplain.filter fun entry => !isTypeKey entry.1)
  rw [tagFree] at hfree
  have hlookup : lookup "type" entries = (Value.mapping entries).get? "type" := rfl
  simp only [component?, hlookup, hfree, hfields, Bool.not_true, Bool.false_eq_true, if_false,
    Option.bind_eq_bind, Option.bind_some, Option.bind_eq_some_iff, Option.pure_def,
    exists_text_iff hplain]
  constructor
  · rintro ⟨type, htype, h⟩
    refine ⟨⟨entries, rfl⟩, ?_⟩
    by_cases hknown : type = "Felinid"
    · subst hknown
      rw [if_pos rfl, Option.bind_eq_some_iff] at h
      obtain ⟨overrides, hoverrides, h⟩ := h
      rw [← Option.some.inj h]
      exact ⟨htype, (hfelinid overrides).1 hoverrides⟩
    · rw [if_neg hknown] at h
      rw [← Option.some.inj h]
      exact ⟨type, htype, hknown⟩
  · rintro ⟨-, h⟩
    cases component with
    | felinid overrides =>
      obtain ⟨htype, hoverrides⟩ := h
      refine ⟨"Felinid", htype, ?_⟩
      rw [if_pos rfl, (hfelinid overrides).2 hoverrides]
      rfl
    | unknown =>
      obtain ⟨type, htype, hknown⟩ := h
      exact ⟨type, htype, if_neg hknown⟩

/-! ## Documents -/

section Documents

variable {v : Value} (hdocument : IsDocument v)

include hdocument

theorem optional_text_iff {name : String} {text? : Option String} :
    optional Value.string? (v.get? name) = some text? ↔ OptionalField IsText (v.get? name) text? :=
  optional_eq_some_iff
    (fun _ hvalue _ => (hdocument.plain.of_get? hvalue).string?_eq_some_iff) (fun _ => nofun)

theorem list_text_iff {name : String} {texts : List String} :
    list Value.string? (v.get? name) = some texts ↔ ListField IsText (v.get? name) texts := by
  refine list_eq_some_iff (fun _ hvalue => (hdocument.plain.of_get? hvalue).isTagged) ?_
  intro items hitems item hitem text
  cases hdocument.plain.of_get? hitems with
  | sequence each => exact (each item hitem).string?_eq_some_iff

theorem list_component_iff {components : List ComponentEntry} :
    list component? (v.get? "components") = some components ↔
      ListField IsComponent (v.get? "components") components := by
  refine list_eq_some_iff (fun _ hvalue => (hdocument.plain.of_get? hvalue).isTagged) ?_
  intro items hitems item hitem component
  cases hdocument.plain.of_get? hitems with
  | sequence each =>
    exact component?_eq_some_iff (each item hitem) (hdocument.components items hitems item hitem)

theorem job?_eq_some_iff {p : JobPrototype} : job? v = some p ↔ Fits v (.job p) := by
  obtain ⟨found, hfields, hfound⟩ :=
    exists_documentFields hdocument.plain hdocument.mapping ["id", "name"]
  have hid := hfound "id" 0 (by decide)
  have hname := hfound "name" 1 (by decide)
  simp only [job?, hfields, hid, hname, Option.bind_eq_bind, Option.bind_some,
    Option.bind_eq_some_iff, Option.pure_def, Option.some.injEq, exists_text_iff hdocument.plain,
    optional_text_iff hdocument]
  constructor
  · rintro ⟨id, hid, name, hname, rfl⟩
    exact ⟨hid, hname⟩
  · rintro ⟨hid, hname⟩
    exact ⟨_, hid, _, hname, rfl⟩

theorem soundCollection?_eq_some_iff {p : SoundCollectionPrototype} :
    soundCollection? v = some p ↔ Fits v (.soundCollection p) := by
  obtain ⟨found, hfields, hfound⟩ :=
    exists_documentFields hdocument.plain hdocument.mapping ["id", "files"]
  have hid := hfound "id" 0 (by decide)
  have hfiles := hfound "files" 1 (by decide)
  simp only [soundCollection?, hfields, hid, hfiles, Option.bind_eq_bind, Option.bind_some,
    Option.bind_eq_some_iff, Option.pure_def, Option.some.injEq, exists_text_iff hdocument.plain,
    list_text_iff hdocument]
  constructor
  · rintro ⟨id, hid, files, hfiles, rfl⟩
    exact ⟨hid, hfiles⟩
  · rintro ⟨hid, hfiles⟩
    exact ⟨_, hid, _, hfiles, rfl⟩

theorem mindFilter?_eq_some_iff {p : MindFilterPrototype} :
    mindFilter? v = some p ↔ Fits v (.mindFilter p) := by
  obtain ⟨found, hfields, hfound⟩ :=
    exists_documentFields hdocument.plain hdocument.mapping ["id", "blacklist"]
  have hid := hfound "id" 0 (by decide)
  have hblacklist := hfound "blacklist" 1 (by decide)
  simp only [mindFilter?, hfields, hid, hblacklist, Option.bind_eq_bind, Option.bind_some,
    Option.bind_eq_some_iff, Option.pure_def, Option.some.injEq, exists_text_iff hdocument.plain,
    list_text_iff hdocument]
  constructor
  · rintro ⟨id, hid, blacklist, hblacklist, rfl⟩
    exact ⟨hid, hblacklist⟩
  · rintro ⟨hid, hblacklist⟩
    exact ⟨_, hid, _, hblacklist, rfl⟩

theorem entity?_eq_some_iff {p : EntityPrototype} :
    entity? v = some p ↔ Fits v (.entity p) := by
  obtain ⟨found, hfields, hfound⟩ :=
    exists_documentFields hdocument.plain hdocument.mapping ["id", "name", "parent", "components"]
  have hid := hfound "id" 0 (by decide)
  have hname := hfound "name" 1 (by decide)
  have hparents := hfound "parent" 2 (by decide)
  have hcomponents := hfound "components" 3 (by decide)
  have hread : ∀ parents, optional parents? (v.get? "parent") = some parents ↔
      OptionalField IsParents (v.get? "parent") parents := fun parents =>
    optional_eq_some_iff (fun _ _ _ => parents?_eq_some_iff) fun parents h => by
      cases parents with
      | one id => cases h
      | many ids => exact nomatch h.choose_spec.1
  simp only [entity?, hfields, hid, hname, hparents, hcomponents, Option.bind_eq_bind,
    Option.bind_some, Option.bind_eq_some_iff, Option.pure_def, Option.some.injEq,
    exists_text_iff hdocument.plain, optional_text_iff hdocument, hread,
    list_component_iff hdocument]
  constructor
  · rintro ⟨id, hid, name, hname, parents, hparents, components, hcomponents, rfl⟩
    exact ⟨hid, hname, hparents, hcomponents⟩
  · rintro ⟨hid, hname, hparents, hcomponents⟩
    exact ⟨_, hid, _, hname, _, hparents, _, hcomponents, rfl⟩

end Documents

end Readers

end Decode

namespace Prototype

open Schema

variable {v w : Value} {p : Prototype}

theorem map_eq_some_iff_of_fits {α : Type} {read : Value → Option α} {make : α → Prototype}
    (hread : ∀ q, read v = some q ↔ Fits v (make q)) :
    (read v).map make = some p ↔ ∃ q, make q = p ∧ Fits v (make q) := by
  simp only [Option.map_eq_some_iff, hread, and_comm]

/-- The decoder accepts under a kind what has its shape, and gives what is written. -/
theorem ofValue?_eq_some_iff (hdocument : IsDocument v) {kind : String} (hkind : kind ∈ kinds) :
    ofValue? kind v = some p ↔ p.kind = kind ∧ Fits v p := by
  simp only [kinds, List.mem_cons, List.not_mem_nil, or_false] at hkind
  rcases hkind with rfl | rfl | rfl | rfl
  · rw [ofValue?, map_eq_some_iff_of_fits fun _ => Decode.job?_eq_some_iff hdocument]
    cases p <;> simp [Prototype.kind, Fits]
  · rw [ofValue?, map_eq_some_iff_of_fits fun _ => Decode.soundCollection?_eq_some_iff hdocument]
    cases p <;> simp [Prototype.kind, Fits]
  · rw [ofValue?, map_eq_some_iff_of_fits fun _ => Decode.mindFilter?_eq_some_iff hdocument]
    cases p <;> simp [Prototype.kind, Fits]
  · rw [ofValue?, map_eq_some_iff_of_fits fun _ => Decode.entity?_eq_some_iff hdocument]
    cases p <;> simp [Prototype.kind, Fits]

theorem ofValue?_congr (hv : IsDocument v) (hw : IsDocument w) {kind : String}
    (hkind : kind ∈ kinds) (h : SameDocument kind v w) : ofValue? kind w = ofValue? kind v := by
  refine Option.ext fun p => ?_
  rw [ofValue?_eq_some_iff hw hkind, ofValue?_eq_some_iff hv hkind]
  refine and_congr_right ?_
  rintro rfl
  exact (fits_congr h).symm

/-- A document without tags is read under a kind exactly if it has the shape of the kind, and then
gives the fields that are written. Keys outside the shape, wherever they are, change nothing. -/
theorem document_is_read_exactly_if_it_fits {kind : String} (hkind : kind ∈ kinds)
    (hdocument : IsDocument v) :
    (∀ p, ofValue? kind v = some p ↔ p.kind = kind ∧ Fits v p) ∧
      ∀ w, IsDocument w → SameDocument kind v w → ofValue? kind w = ofValue? kind v :=
  ⟨fun _ => ofValue?_eq_some_iff hdocument hkind,
    fun _ hw hsame => ofValue?_congr hdocument hw hkind hsame⟩

/-- A cat with two parents, a coat and a sound for meals, and with foreign entries in each of its
mappings. -/
def catDocument (foreign : List (String × Value)) : Value :=
  Encode.record <|
    [("id", .string "Cat"), ("parent", Encode.texts ["Animal", "Felid"]),
      ("components", .sequence
        [Encode.record <|
          [("type", .string "Felinid"), ("hairballAction", .null),
            ("eatSound", Encode.record <| ("collection", .string "Eat") :: foreign)] ++ foreign,
          Encode.record <| ("type", .string "Coat") :: foreign])] ++ foreign

theorem isDocument_catDocument {foreign : List (String × Value)}
    (h : foreign = [] ∨ foreign = [("volume", .atom (.int 3))]) :
    IsDocument (catDocument foreign) where
  plain := by
    have hatom := Value.Plain.atom
    have hforeign : ∀ entry ∈ foreign, entry.2.Plain := by
      rcases h with rfl | rfl <;> simp [hatom]
    have hsound : (Encode.record (("collection", .string "Eat") :: foreign)).Plain :=
      Value.plain_record (by rcases h with rfl | rfl <;> decide)
        (List.forall_mem_cons.2 ⟨hatom _, hforeign⟩)
    have hcoat : (Encode.record (("type", .string "Coat") :: foreign)).Plain :=
      Value.plain_record (by rcases h with rfl | rfl <;> decide)
        (List.forall_mem_cons.2 ⟨hatom _, hforeign⟩)
    have hfelinid : (Encode.record <|
        [("type", .string "Felinid"), ("hairballAction", .null),
          ("eatSound", Encode.record <| ("collection", .string "Eat") :: foreign)] ++
            foreign).Plain :=
      Value.plain_record (by rcases h with rfl | rfl <;> decide)
        (List.forall_mem_append.2 ⟨by simp [hatom, hsound], hforeign⟩)
    have hcomponents :=
      Value.Plain.sequence (List.forall_mem_cons.2 ⟨hfelinid, List.forall_mem_singleton.2 hcoat⟩)
    refine Value.plain_record (by rcases h with rfl | rfl <;> decide)
      (List.forall_mem_append.2 ⟨?_, hforeign⟩)
    exact List.forall_mem_cons.2 ⟨hatom _, List.forall_mem_cons.2 ⟨Value.plain_texts _,
      List.forall_mem_singleton.2 hcomponents⟩⟩
  mapping := ⟨_, rfl⟩
  components := by
    rintro items ⟨⟩
    simp [Encode.record, Value.IsMapping]

/-- A cat is read with its parents, its sound and its two components, and as much without the
foreign entries. -/
theorem document_is_read_exactly_if_it_fits_cat :
    ofValue? "entity" (catDocument [("volume", .atom (.int 3))]) =
        some (.entity
          { id := "Cat", parents := some (.many ["Animal", "Felid"]),
            components := [.felinid { eatSound := some (.collection "Eat") }, .unknown] }) ∧
      ofValue? "entity" (catDocument []) =
        ofValue? "entity" (catDocument [("volume", .atom (.int 3))]) := by
  have hentity : "entity" ∈ kinds := by decide
  obtain ⟨hread, hforeign⟩ :=
    document_is_read_exactly_if_it_fits hentity (isDocument_catDocument (.inr rfl))
  refine ⟨(hread _).2 ⟨rfl, ?_⟩, hforeign _ (isDocument_catDocument (.inl rfl)) ?_⟩
  · refine ⟨rfl, .absent, .given ⟨_, rfl, ?_⟩, .given ?_⟩
    · exact .cons rfl (.cons rfl .nil)
    · refine .cons ⟨⟨_, rfl⟩, rfl, .absent, .null, .given ⟨⟨_, rfl⟩, nofun, rfl⟩⟩ (.cons ?_ .nil)
      exact ⟨⟨_, rfl⟩, "Coat", rfl, by decide⟩
  · refine ⟨?_, fun _ => .some (.inr ⟨_, _, rfl, rfl, .cons ?_ (.cons ?_ .nil)⟩)⟩
    · exact .cons rfl (.cons rfl (.cons rfl .nil))
    · refine ⟨⟨_, rfl⟩, ⟨_, rfl⟩, rfl, fun _ => ⟨?_, .some (.inr ⟨⟨_, rfl⟩, ⟨_, rfl⟩, ?_⟩)⟩⟩
      · exact .cons rfl (.cons rfl .nil)
      · exact .cons rfl (.cons rfl .nil)
    · refine ⟨⟨_, rfl⟩, ⟨_, rfl⟩, rfl, fun htype => ?_⟩
      have hcoat : some (Value.string "Coat") = some (.string "Felinid") := htype
      simp at hcoat

end Prototype

end Station
