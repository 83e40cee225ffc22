import Station.Proofs.Table
import Station.Report

/-!
# What the census records

A census is made in one pass over documents of all kinds, some without an id and some with the same
reference twice. `Census.Records` says what it knows after a list of documents, in terms of these
documents alone. Each document that is noted keeps it true (`Records.note`), so it holds of the
census of a catalogue (`records_census`).
-/

namespace Station.Census

/-- The files of the documents that define an id, one for each document, in order. -/
def filesDefining (documents : List LoadedPrototype) (id : PrototypeId) : List String :=
  (documents.filter fun loaded => loaded.prototype.id? == some id).map fun loaded =>
    loaded.path.text

/-- A file has a document that refers to an id. -/
def Refers (documents : List LoadedPrototype) (file : String) (id : PrototypeId) : Prop :=
  ∃ loaded ∈ documents, loaded.path.text = file ∧ id ∈ loaded.prototype.references

/-- The census knows what the documents define and what they refer to. -/
structure Records (census : Census) (documents : List LoadedPrototype) : Prop where
  definitions_eq : ∀ id, census.definitions id = filesDefining documents id
  defined_iff : ∀ id, census.defined.contains id = true ↔ filesDefining documents id ≠ []
  referrers_iff : ∀ id file,
    (census.referrers id).contains file = true ↔ Refers documents file id
  referenced_iff : ∀ id, census.referenced.contains id = true ↔ ∃ file, Refers documents file id

/-! ## Documents -/

theorem filesDefining_concat (documents : List LoadedPrototype) (loaded : LoadedPrototype)
    (id : PrototypeId) :
    filesDefining (documents ++ [loaded]) id =
      if loaded.prototype.id? = some id then filesDefining documents id ++ [loaded.path.text]
      else filesDefining documents id := by
  rw [filesDefining, List.filter_append, List.map_append, ← filesDefining]
  by_cases h : loaded.prototype.id? = some id
  · simp [h]
  · have hkeep : (loaded.prototype.id? == some id) = false := beq_eq_false_iff_ne.2 h
    simp [h, hkeep]

theorem refers_concat {documents : List LoadedPrototype} {loaded : LoadedPrototype} {file : String}
    {id : PrototypeId} :
    Refers (documents ++ [loaded]) file id ↔
      Refers documents file id ∨ loaded.path.text = file ∧ id ∈ loaded.prototype.references := by
  simp only [Refers, List.mem_append, List.mem_singleton, or_and_right, exists_or,
    exists_eq_left]

/-- An id has a file exactly if some document defines it. -/
theorem filesDefining_ne_nil_iff {documents : List LoadedPrototype} {id : PrototypeId} :
    filesDefining documents id ≠ [] ↔ ∃ loaded ∈ documents, loaded.prototype.id? = some id := by
  simp [filesDefining, List.filter_eq_nil_iff]

/-- An id has as many files as documents that define it. -/
theorem length_filesDefining (documents : List LoadedPrototype) (id : PrototypeId) :
    (filesDefining documents id).length =
      (documents.filterMap fun loaded => loaded.prototype.id?).count id := by
  rw [filesDefining, List.length_map, List.count_filterMap, List.countP_eq_length_filter]

/-! ## One document -/

variable {census : Census} {documents : List LoadedPrototype}

theorem definitions_define (census : Census) (file : String) (id other : PrototypeId) :
    (census.define file id).definitions other =
      if other = id then census.definitions id ++ [file] else census.definitions other := by
  rw [definitions, define, Table.get?_insert]
  split <;> rfl

theorem contains_define (census : Census) (file : String) (id other : PrototypeId) :
    (census.define file id).defined.contains other = true ↔
      other = id ∨ census.defined.contains other = true :=
  Table.contains_insert _ _ _ _

theorem contains_referrers_refer (census : Census) (file other : String) (id probe : PrototypeId) :
    ((census.refer file id).referrers probe).contains other = true ↔
      (probe = id ∧ other = file) ∨ (census.referrers probe).contains other = true := by
  rw [referrers, refer, Table.get?_insert]
  by_cases hprobe : probe = id
  · rw [if_pos hprobe, Option.getD_some, Table.contains_insert, hprobe]
    simp only [true_and]
  · rw [if_neg hprobe, ← referrers]
    simp only [hprobe, false_and, false_or]

theorem contains_refer (census : Census) (file : String) (id probe : PrototypeId) :
    (census.refer file id).referenced.contains probe = true ↔
      probe = id ∨ census.referenced.contains probe = true :=
  Table.contains_insert _ _ _ _

/-- Definitions are not touched by references. -/
theorem defined_foldl_refer (census : Census) (file : String) (ids : List PrototypeId) :
    (ids.foldl (fun census id => census.refer file id) census).defined = census.defined := by
  induction ids generalizing census with
  | nil => rfl
  | cons id ids ih => exact ih (census.refer file id)

theorem contains_referrers_foldl_refer (census : Census) (file other : String)
    (ids : List PrototypeId) (probe : PrototypeId) :
    ((ids.foldl (fun census id => census.refer file id) census).referrers probe).contains other
        = true ↔
      (probe ∈ ids ∧ other = file) ∨ (census.referrers probe).contains other = true := by
  induction ids generalizing census with
  | nil => simp
  | cons id ids ih =>
    rw [List.foldl_cons, ih, contains_referrers_refer, List.mem_cons]
    tauto

theorem contains_foldl_refer (census : Census) (file : String) (ids : List PrototypeId)
    (probe : PrototypeId) :
    (ids.foldl (fun census id => census.refer file id) census).referenced.contains probe = true ↔
      probe ∈ ids ∨ census.referenced.contains probe = true := by
  induction ids generalizing census with
  | nil => simp
  | cons id ids ih =>
    rw [List.foldl_cons, ih, contains_refer, List.mem_cons]
    tauto

theorem definitions_note (census : Census) (loaded : LoadedPrototype) (id : PrototypeId) :
    (census.note loaded).definitions id =
      if loaded.prototype.id? = some id then census.definitions id ++ [loaded.path.text]
      else census.definitions id := by
  rw [definitions, note, defined_foldl_refer, ← definitions]
  cases hid : loaded.prototype.id? with
  | none => rfl
  | some defined =>
    rw [Option.elim_some, definitions_define]
    by_cases h : id = defined
    · rw [if_pos h, if_pos (congrArg some h.symm), h]
    · rw [if_neg h, if_neg fun heq => h (Option.some.inj heq).symm]

theorem contains_defined_note (census : Census) (loaded : LoadedPrototype) (id : PrototypeId) :
    (census.note loaded).defined.contains id = true ↔
      loaded.prototype.id? = some id ∨ census.defined.contains id = true := by
  rw [note, defined_foldl_refer]
  cases hid : loaded.prototype.id? with
  | none => simp
  | some defined =>
    rw [Option.elim_some, contains_define, Option.some.injEq, eq_comm]

/-- What a document defines changes nothing about what is referred to. -/
theorem referenced_elim_define (census : Census) (file : String) (id? : Option PrototypeId) :
    (id?.elim census (census.define file)).referenced = census.referenced := by
  cases id? <;> rfl

/-- The census goes on to know what the documents define and refer to. -/
theorem Records.note (h : census.Records documents) (loaded : LoadedPrototype) :
    (census.note loaded).Records (documents ++ [loaded]) where
  definitions_eq := by
    intro id
    rw [definitions_note, filesDefining_concat, h.definitions_eq]
  defined_iff := by
    intro id
    rw [contains_defined_note, filesDefining_concat, h.defined_iff]
    split <;> simp [*]
  referrers_iff := by
    -- the references of the document come after its id, which leaves them alone
    intro id file
    rw [Census.note, contains_referrers_foldl_refer, refers_concat, referrers,
      referenced_elim_define, ← referrers, h.referrers_iff]
    tauto
  referenced_iff := by
    intro id
    rw [Census.note, contains_foldl_refer, referenced_elim_define, h.referenced_iff]
    simp only [refers_concat, exists_or, exists_eq_left']
    tauto

/-! ## Rows -/

theorem Records.mem_defined_iff (h : census.Records documents) {id : PrototypeId}
    {files : List String} :
    (id, files) ∈ census.defined.rows ↔
      filesDefining documents id ≠ [] ∧ files = filesDefining documents id := by
  rw [Table.mem_rows_iff_getD census.defined id files [], h.defined_iff, ← definitions,
    h.definitions_eq]

theorem Records.mem_referenced_iff (h : census.Records documents) {id : PrototypeId}
    {files : Table String Unit} :
    (id, files) ∈ census.referenced.rows ↔
      (∃ file, Refers documents file id) ∧ files = census.referrers id := by
  rw [Table.mem_rows_iff_getD census.referenced id files .empty, h.referenced_iff, referrers]

/-- The files that refer to an id are listed in order, each of them once. -/
theorem Records.mem_keys_referrers_iff (h : census.Records documents) {id : PrototypeId}
    {file : String} : file ∈ (census.referrers id).keys ↔ Refers documents file id := by
  rw [Table.mem_keys_iff, ← Table.contains, h.referrers_iff]

/-! ## All documents -/

theorem records_nil : ({} : Census).Records [] where
  definitions_eq := fun _ => rfl
  defined_iff := fun _ => by simp [filesDefining, Table.contains]
  referrers_iff := fun _ _ => by simp [Refers, referrers, Table.contains]
  referenced_iff := fun _ => by simp [Refers, Table.contains]

/-- The census of a catalogue knows its documents. -/
theorem records_census (c : Catalogue) : c.census.Records c.prototypes := by
  rw [Catalogue.census]
  induction c.prototypes using List.reverseRecOn with
  | nil => exact records_nil
  | append_singleton documents loaded ih =>
    rw [List.foldl_concat]
    exact ih.note loaded

end Station.Census
