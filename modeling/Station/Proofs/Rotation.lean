import Mathlib.Order.Interval.Finset.Nat
import Station.Proofs.Redefinition
import Station.Sound

/-!
# Sound collections take turns

What a registry of sounds answers for a collection depends on two things: the files that were
registered for it last, and how often it was resolved since. One call moves the turn of one
collection at most (`SoundRegistry.get?_call`), so in every history the answers since the last
registration go round the files (`SoundRegistry.answers_of_registered`). The turn is counted modulo
`2 ^ 64`, and as long as it does not wrap, a round is as long as there are files and meets each of
them once (`perm_positions`).
-/

namespace Station

/-! ## Turns -/

namespace SoundCollection

/-- A collection after it was played some times. One without files never gets a turn. -/
def advance (plays : Nat) (c : SoundCollection) : SoundCollection :=
  if c.files = [] then c else { c with turn := c.turn + .ofNat plays }

theorem advance_zero (c : SoundCollection) : c.advance 0 = c := by
  rw [advance]
  split
  · rfl
  · simp

/-- No play leaves the collection as it is, where there is one. -/
theorem map_advance_zero (found : Option SoundCollection) : found.map (advance 0) = found := by
  rw [funext advance_zero, Option.map_id']

theorem advance_advance (c : SoundCollection) (m n : Nat) :
    (c.advance m).advance n = c.advance (m + n) := by
  by_cases h : c.files = []
  · simp [advance, h]
  · simp [advance, h, UInt64.add_assoc, UInt64.ofNat_add]

/-- The file whose turn it is. -/
def current? (c : SoundCollection) : Option String := c.files[c.turn.toNat % c.files.length]?

theorem take_eq (c : SoundCollection) :
    c.take = c.current?.map fun file => (file, c.advance 1) := by
  rw [take, current?, advance]
  by_cases h : c.files = []
  · simp [h]
  · simp [h]

/-- Only without files there is none whose turn it is. -/
theorem getElem?_mod_length_eq_none_iff {files : List String} {turn : Nat} :
    files[turn % files.length]? = none ↔ files = [] := by
  rw [List.getElem?_eq_none_iff]
  constructor
  · intro h
    by_contra hne
    exact absurd (Nat.mod_lt _ (List.length_pos_iff.2 hne)) (Nat.not_lt.2 h)
  · intro h
    simp [h]

theorem current?_eq_none_iff {c : SoundCollection} : c.current? = none ↔ c.files = [] :=
  getElem?_mod_length_eq_none_iff

theorem current?_advance (files : List String) (plays : Nat) :
    ((({ files } : SoundCollection).advance plays)).current? =
      files[plays % 2 ^ 64 % files.length]? := by
  by_cases h : files = []
  · simp [current?, advance, h]
  · simp [current?, advance, h]

end SoundCollection

namespace SoundRegistry

variable (r : SoundRegistry) (id : SoundCollectionId)

theorem resolve_collection_fst :
    (r.resolve (.collection id)).1 = (r.collections.get? id).bind SoundCollection.current? := by
  rw [resolve]
  cases r.collections.get? id with
  | none => rfl
  | some c =>
    rw [Option.bind_some, Option.bind_some, SoundCollection.take_eq]
    cases c.current? <;> rfl

/-- Playing a collection passes its turn on, and no other one. -/
theorem get?_resolve_collection (probe : SoundCollectionId) :
    (r.resolve (.collection id)).2.collections.get? probe =
      (r.collections.get? probe).map (SoundCollection.advance (if id = probe then 1 else 0)) := by
  have hkeep : (r.collections.get? probe).map (SoundCollection.advance 0) =
      r.collections.get? probe := SoundCollection.map_advance_zero _
  rw [resolve]
  cases htake : (r.collections.get? id).bind SoundCollection.take with
  | none =>
    show r.collections.get? probe = _
    by_cases heq : id = probe
    · subst heq
      cases hfound : r.collections.get? id with
      | none => rfl
      | some c =>
        -- the collection has no files, and so it has no turn to pass on
        rw [hfound, Option.bind_some, SoundCollection.take_eq, Option.map_eq_none_iff] at htake
        have hempty : c.files = [] := SoundCollection.current?_eq_none_iff.1 htake
        rw [Option.map_some, SoundCollection.advance, if_pos hempty]
    · rw [if_neg heq, hkeep]
  | some taken =>
    show (r.collections.insert id taken.2).get? probe = _
    obtain ⟨c, hfound, htake⟩ := Option.bind_eq_some_iff.1 htake
    rw [SoundCollection.take_eq] at htake
    obtain ⟨file, -, rfl⟩ := Option.map_eq_some_iff.1 htake
    rw [Table.get?_insert]
    by_cases heq : id = probe
    · rw [if_pos heq.symm, if_pos heq, ← heq, hfound, Option.map_some]
    · rw [if_neg (Ne.symm heq), if_neg heq, hkeep]

end SoundRegistry

/-! ## Histories -/

/-- A call on a registry of sounds. -/
inductive SoundCall where
  /-- Register the files of a collection. -/
  | register (id : SoundCollectionId) (files : List String)
  /-- Ask for the file to play for a specifier. -/
  | resolve (sound : SoundSpecifier)
  deriving DecidableEq

namespace SoundCall

/-- The files that a call registers for a collection, if it is a registration of that collection. -/
def files? (id : SoundCollectionId) : SoundCall → Option (List String)
  | .register other files => if other = id then some files else none
  | .resolve _ => none

/-- Whether a call resolves a collection. -/
def resolves (id : SoundCollectionId) : SoundCall → Bool
  | .resolve (.collection other) => decide (other = id)
  | .resolve (.path _) | .register .. => false

/-- Whether a call registers or resolves a collection. -/
def concerns (id : SoundCollectionId) (call : SoundCall) : Bool :=
  (call.files? id).isSome || call.resolves id

variable {id : SoundCollectionId}

theorem files?_eq_some_iff {c : SoundCall} {files : List String} :
    c.files? id = some files ↔ c = .register id files := by
  cases c with
  | register other listed =>
    rw [files?]
    by_cases h : other = id
    · simp [h]
    · simp [h]
  | resolve sound => simp [files?]

theorem forall_files?_eq_none_iff {calls : List SoundCall} :
    (∀ c ∈ calls, c.files? id = none) ↔ ∀ files, register id files ∉ calls := by
  simp only [Option.eq_none_iff_forall_ne_some, ne_eq, files?_eq_some_iff]
  constructor
  · intro h files hmem
    exact h _ hmem files rfl
  · rintro h c hmem files rfl
    exact h files hmem

end SoundCall

namespace SoundRegistry

/-- The registry after a call. -/
def call (r : SoundRegistry) : SoundCall → SoundRegistry
  | .register id files => r.register id files
  | .resolve sound => (r.resolve sound).2

/-- The registry after some calls. -/
def after (r : SoundRegistry) (calls : List SoundCall) : SoundRegistry := calls.foldl call r

/-- What some calls resolve, each with its answer, in order. -/
def played : SoundRegistry → List SoundCall → List (SoundSpecifier × Option String)
  | _, [] => []
  | r, .register id files :: rest => played (r.register id files) rest
  | r, .resolve sound :: rest => (sound, (r.resolve sound).1) :: played (r.resolve sound).2 rest

/-- The answers to those of some calls that resolve one collection, in order. -/
def answers (r : SoundRegistry) (id : SoundCollectionId) (calls : List SoundCall) :
    List (Option String) :=
  (r.played calls).filterMap fun (sound, answer) =>
    if sound = .collection id then some answer else none

variable {r s : SoundRegistry} {id : SoundCollectionId} {calls since : List SoundCall}

/-- A call starts a collection afresh, moves its turn by one, or leaves it alone. -/
theorem get?_call (r : SoundRegistry) (c : SoundCall) (id : SoundCollectionId) :
    (r.call c).collections.get? id =
      match c.files? id with
      | some files => some { files }
      | none =>
        (r.collections.get? id).map (SoundCollection.advance (if c.resolves id then 1 else 0)) := by
  have hkeep : (r.collections.get? id).map (SoundCollection.advance 0) =
      r.collections.get? id := SoundCollection.map_advance_zero _
  cases c with
  | register other files =>
    rw [call, register, Table.get?_insert, SoundCall.files?]
    by_cases h : other = id
    · rw [if_pos h.symm, if_pos h]
    · rw [if_neg (Ne.symm h), if_neg h]
      exact hkeep.symm
  | resolve sound =>
    cases sound with
    | path path => exact hkeep.symm
    | collection other =>
      rw [call, get?_resolve_collection]
      simp [SoundCall.files?, SoundCall.resolves]

/-- A collection that is not registered meanwhile moves on by the number of times that it is
resolved. -/
theorem get?_after_of_silent (r : SoundRegistry) (hsilent : ∀ c ∈ since, c.files? id = none) :
    (r.after since).collections.get? id =
      (r.collections.get? id).map
        (SoundCollection.advance (since.countP (SoundCall.resolves id))) := by
  induction since using List.reverseRecOn with
  | nil => exact (SoundCollection.map_advance_zero _).symm
  | append_singleton since c ih =>
    have hc : c.files? id = none := hsilent c (by simp)
    have hsince : ∀ c ∈ since, c.files? id = none := fun c hmem => hsilent c (by simp [hmem])
    rw [after, List.foldl_concat, ← after, get?_call, hc, ih hsince, List.countP_append,
      List.countP_singleton]
    dsimp only
    rw [Option.map_map]
    refine congrArg (Option.map · _) (funext fun collection => ?_)
    exact SoundCollection.advance_advance ..

/-- After a registration only the number of resolves counts. -/
theorem resolve_of_registered (r : SoundRegistry) (files : List String)
    (hsilent : ∀ c ∈ since, c.files? id = none) :
    (((r.register id files).after since).resolve (.collection id)).1 =
      files[since.countP (SoundCall.resolves id) % 2 ^ 64 % files.length]? := by
  have hregister : (r.register id files).collections.get? id = some { files } := by
    rw [register, Table.get?_insert, if_pos rfl]
  rw [resolve_collection_fst, get?_after_of_silent _ hsilent, hregister]
  exact SoundCollection.current?_advance files _

/-! ## Answers -/

theorem played_append (r : SoundRegistry) (xs ys : List SoundCall) :
    r.played (xs ++ ys) = r.played xs ++ (r.after xs).played ys := by
  induction xs generalizing r with
  | nil => rfl
  | cons c xs ih =>
    cases c with
    | register other files => exact ih _
    | resolve sound => exact congrArg (_ :: ·) (ih _)

theorem answers_append (r : SoundRegistry) (id : SoundCollectionId) (xs ys : List SoundCall) :
    r.answers id (xs ++ ys) = r.answers id xs ++ (r.after xs).answers id ys := by
  rw [answers, played_append, List.filterMap_append]
  rfl

theorem answers_singleton (r : SoundRegistry) (id : SoundCollectionId) (c : SoundCall) :
    r.answers id [c] = if c.resolves id then [(r.resolve (.collection id)).1] else [] := by
  cases c with
  | register other files => rfl
  | resolve sound =>
    cases sound with
    | path path => rfl
    | collection other =>
      by_cases h : other = id
      · simp [answers, played, SoundCall.resolves, h]
      · simp [answers, played, SoundCall.resolves, h]

/-- The answers for a collection since it was registered. -/
theorem answers_of_registered (r : SoundRegistry) (files : List String)
    (hsilent : ∀ c ∈ since, c.files? id = none) :
    (r.register id files).answers id since =
      (List.range (since.countP (SoundCall.resolves id))).map fun k =>
        files[k % 2 ^ 64 % files.length]? := by
  -- from the end, where the number of resolves so far is the turn of the next one
  induction since using List.reverseRecOn with
  | nil => rfl
  | append_singleton since c ih =>
    have hsince : ∀ c ∈ since, c.files? id = none := fun c hmem => hsilent c (by simp [hmem])
    rw [answers_append, ih hsince, answers_singleton, resolve_of_registered r files hsince,
      List.countP_append, List.countP_singleton]
    cases c.resolves id with
    | false => simp
    | true => simp [List.range_succ]

theorem answers_cons (r : SoundRegistry) (id : SoundCollectionId) (c : SoundCall)
    (calls : List SoundCall) :
    r.answers id (c :: calls) =
      (if c.resolves id then [(r.resolve (.collection id)).1] else []) ++
        (r.call c).answers id calls := by
  rw [← List.singleton_append, answers_append, answers_singleton]
  rfl

/-- Calls that do not concern a collection make no difference to its answers, and neither does the
rest of the registry. -/
theorem answers_filter_concerns (h : r.collections.get? id = s.collections.get? id)
    (calls : List SoundCall) :
    r.answers id (calls.filter (SoundCall.concerns id)) = s.answers id calls := by
  induction calls generalizing r s with
  | nil => rfl
  | cons c calls ih =>
    rw [answers_cons s]
    by_cases hconcerns : c.concerns id = true
    · have hcall : (r.call c).collections.get? id = (s.call c).collections.get? id := by
        rw [get?_call, get?_call, h]
      rw [List.filter_cons_of_pos hconcerns, answers_cons r, resolve_collection_fst,
        resolve_collection_fst, h, ih hcall]
    · obtain ⟨hfiles, hresolves⟩ : c.files? id = none ∧ c.resolves id = false := by
        simpa [SoundCall.concerns] using hconcerns
      have hcall : r.collections.get? id = (s.call c).collections.get? id := by
        rw [get?_call, hfiles, hresolves, h]
        exact (SoundCollection.map_advance_zero _).symm
      rw [List.filter_cons_of_neg hconcerns, hresolves, ih hcall]
      rfl

end SoundRegistry

/-! ## Rounds -/

/-- The answers go round some files. Their `k`-th is file `k % 2 ^ 64 % files.length`, and as long
as `2 ^ 64` is not reached, as many answers in a row as there are files come from different places.
-/
structure GoesRound (files : List String) (answers : List (Option String)) : Prop where
  answers_eq : answers =
    (List.range answers.length).map fun k => files[k % 2 ^ 64 % files.length]?
  position_lt : ∀ k, k % 2 ^ 64 % files.length < files.length
  round : ∀ m, m + files.length ≤ 2 ^ 64 → m + files.length ≤ answers.length →
    let positions := (List.range' m files.length).map fun k => k % 2 ^ 64 % files.length
    positions.Perm (List.range files.length) ∧
      (answers.drop m).take files.length = positions.map fun i => files[i]?

/-- As long as the count does not wrap, a round meets each of `n` places once. -/
theorem perm_positions {m n : Nat} (h : m + n ≤ 2 ^ 64) :
    ((List.range' m n).map fun k => k % 2 ^ 64 % n).Perm (List.range n) := by
  have hmod : ((List.range' m n).map fun k => k % 2 ^ 64 % n) = (List.range' m n).map (· % n) := by
    refine List.map_congr_left fun k hk => ?_
    have hlt : k < m + n := (List.mem_range'_1.1 hk).2
    rw [Nat.mod_eq_of_lt (hlt.trans_le h)]
  have hround : (List.range' m (m + n - m) : Multiset Nat).map (· % n) = Multiset.range n :=
    Nat.multiset_Ico_map_mod m n
  rw [Nat.add_sub_cancel_left] at hround
  rw [hmod]
  exact Multiset.coe_eq_coe.1 hround

theorem goesRound_map_range {files : List String} (h : files ≠ []) (count : Nat) :
    GoesRound files
      ((List.range count).map fun k => files[k % 2 ^ 64 % files.length]?) where
  answers_eq := by rw [List.length_map, List.length_range]
  position_lt _ := Nat.mod_lt _ (List.length_pos_iff.2 h)
  round m hwraps hcount := by
    rw [List.length_map, List.length_range] at hcount
    refine ⟨perm_positions hwraps, ?_⟩
    rw [← List.map_drop, ← List.map_take, List.map_map, List.range_eq_range', List.drop_range',
      List.take_range'_of_length_ge (Nat.le_sub_of_add_le' hcount), Nat.mul_one, Nat.zero_add]
    rfl

/-! ## All histories -/

namespace SoundRegistry

variable {id : SoundCollectionId} {calls since : List SoundCall}

/-- A collection that was never registered has no answer. -/
theorem resolve_of_silent (hsilent : ∀ c ∈ calls, c.files? id = none) :
    ((({} : SoundRegistry).after calls).resolve (.collection id)).1 = none := by
  rw [resolve_collection_fst, get?_after_of_silent _ hsilent]
  rfl

/-- The last registration of a collection decides, with the number of resolves since. -/
theorem resolve_of_split {before : List SoundCall} {files : List String}
    (hcalls : calls = before ++ .register id files :: since)
    (hsilent : ∀ c ∈ since, c.files? id = none) :
    ((({} : SoundRegistry).after calls).resolve (.collection id)).1 =
      files[since.countP (SoundCall.resolves id) % 2 ^ 64 % files.length]? := by
  rw [hcalls, after, List.foldl_append, List.foldl_cons]
  exact resolve_of_registered _ files hsilent

/-- A collection has no answer exactly if it was never registered, or last without files. -/
theorem resolve_eq_none_iff :
    ((({} : SoundRegistry).after calls).resolve (.collection id)).1 = none ↔
      (∀ c ∈ calls, c.files? id = none) ∨
        ∃ before since, calls = before ++ .register id [] :: since ∧
          ∀ c ∈ since, c.files? id = none := by
  constructor
  · intro hnone
    refine or_iff_not_imp_left.2 fun hregistered => ?_
    obtain ⟨files, before, c, since, hcalls, hc, hsince⟩ := exists_lastOf_iff.2 hregistered
    obtain rfl := SoundCall.files?_eq_some_iff.1 hc
    rw [resolve_of_split hcalls hsince, SoundCollection.getElem?_mod_length_eq_none_iff] at hnone
    exact ⟨before, since, hnone ▸ hcalls, hsince⟩
  · rintro (hsilent | ⟨before, since, hcalls, hsince⟩)
    · exact resolve_of_silent hsilent
    · rw [resolve_of_split hcalls hsince]
      rfl

/-- In every history, a collection has an answer exactly if it was registered and the last time with
some files. Since then its answers go round these files: the next one is decided by how many there
were. Paths answer themselves and move nothing, and the answers of a collection are the same without
all calls that are about something else. -/
theorem collections_take_turns (calls : List SoundCall) (id : SoundCollectionId) :
    let r := ({} : SoundRegistry).after calls
    ((r.resolve (.collection id)).1 = none ↔
        (∀ files, .register id files ∉ calls) ∨
          ∃ before since, calls = before ++ .register id [] :: since ∧
            ∀ files, .register id files ∉ since) ∧
      (∀ before files since, calls = before ++ .register id files :: since →
        (∀ later, .register id later ∉ since) → files ≠ [] →
        let count := since.countP (SoundCall.resolves id)
        count % 2 ^ 64 % files.length < files.length ∧
          (r.resolve (.collection id)).1 = files[count % 2 ^ 64 % files.length]? ∧
          ∃ answers, answers.length = count ∧ GoesRound files answers ∧
            ({} : SoundRegistry).answers id calls =
              ({} : SoundRegistry).answers id before ++ answers) ∧
      (∀ path, r.resolve (.path path) = (some path, r)) ∧
      ({} : SoundRegistry).answers id (calls.filter (SoundCall.concerns id)) =
        ({} : SoundRegistry).answers id calls := by
  intro r
  refine ⟨?_, ?_, fun path => rfl, answers_filter_concerns rfl calls⟩
  · simpa only [SoundCall.forall_files?_eq_none_iff] using resolve_eq_none_iff
  · intro before files since hcalls hlater hfiles count
    have hsilent := SoundCall.forall_files?_eq_none_iff.2 hlater
    refine ⟨Nat.mod_lt _ (List.length_pos_iff.2 hfiles), resolve_of_split hcalls hsilent, _, ?_,
      goesRound_map_range hfiles count, ?_⟩
    · rw [List.length_map, List.length_range]
    · rw [hcalls, answers_append, answers_cons]
      exact congrArg (_ ++ ·) (answers_of_registered _ files hsilent)

/-- A collection of two files that was registered before, and played in between paths, another
collection and a registration of that one. -/
def medley : List SoundCall :=
  [.register "A" ["z"], .resolve (.collection "A"), .register "A" ["x", "y"],
    .resolve (.collection "A"), .register "B" ["w"], .resolve (.collection "B"),
    .resolve (.path "x"), .resolve (.collection "A"), .resolve (.collection "A")]

theorem collections_take_turns_medley :
    ((({} : SoundRegistry).after medley).resolve (.collection "A")).1 = some "y" ∧
      ∃ answers, answers.length = 3 ∧ GoesRound ["x", "y"] answers ∧
        ({} : SoundRegistry).answers "A" medley = [some "z"] ++ answers := by
  have hround := (collections_take_turns medley "A").2.1
    [.register "A" ["z"], .resolve (.collection "A")] ["x", "y"]
    [.resolve (.collection "A"), .register "B" ["w"], .resolve (.collection "B"),
      .resolve (.path "x"), .resolve (.collection "A"), .resolve (.collection "A")]
    rfl (by simp) (by decide)
  obtain ⟨-, hnext, answers, hlength, hgoes, hall⟩ := hround
  exact ⟨hnext, answers, hlength, hgoes, hall⟩

end SoundRegistry

end Station
