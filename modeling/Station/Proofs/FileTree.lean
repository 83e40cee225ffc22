import Mathlib.Data.List.Nodup
import Station.FileTree
import Station.Proofs.Path

/-!
# What lies below a directory

The names in a directory are pieces of paths other than the dots, and differ from each other: such
nodes are `Proper`. `FileNode.reachable` lists a node and everything below it, each with the names
that lead there, and below a proper node the list is complete and without repetition
(`mem_reachable_iff`, `nodup_reachable`).

A path is followed piece by piece. From a directory an empty piece and a dot stay
(`step_of_stays`), and a name goes down to its entry (`step_name`). So the join of a path to a
directory and a name leads to the entry of that name (`locate_join`).
-/

namespace Station

/-! ## Nodes -/

/-- A name that an entry of a directory can have. -/
structure IsEntryName (name : String) : Prop where
  isPiece : Path.IsPiece name
  ne_empty : name ≠ ""
  ne_dot : name ≠ "."
  ne_dots : name ≠ ".."

instance (name : String) : Decidable (IsEntryName name) :=
  decidable_of_iff (Path.IsPiece name ∧ name ≠ "" ∧ name ≠ "." ∧ name ≠ "..")
    ⟨fun ⟨hpiece, hempty, hdot, hdots⟩ => ⟨hpiece, hempty, hdot, hdots⟩,
      fun ⟨hpiece, hempty, hdot, hdots⟩ => ⟨hpiece, hempty, hdot, hdots⟩⟩

namespace FileNode

/-- Every directory has proper names, each of them once. -/
inductive Proper : FileNode → Prop where
  /-- Nothing but a directory has names. -/
  | leaf {node : FileNode} (h : node.isDirectory = false) : Proper node
  /-- The entries of a directory are proper nodes under proper names. -/
  | directory {entries : List (String × FileNode)} (nodup : (entries.map Prod.fst).Nodup)
      (named : ∀ entry ∈ entries, IsEntryName entry.1) (below : ∀ entry ∈ entries, entry.2.Proper) :
      Proper (.directory entries)

mutual

/-- A node and everything below it, with the names that lead there. -/
def reachable : FileNode → List (List String × FileNode)
  | .file bytes => [([], .file bytes)]
  | .unreadable error => [([], .unreadable error)]
  | .directory entries => ([], .directory entries) :: reachableIn entries

/-- Everything that the entries of a directory lead to. -/
def reachableIn : List (String × FileNode) → List (List String × FileNode)
  | [] => []
  | (name, node) :: rest =>
    (node.reachable.map fun found => (name :: found.1, found.2)) ++ reachableIn rest

end

theorem isDirectory_iff_exists {node : FileNode} :
    node.isDirectory = true ↔ ∃ entries, node = .directory entries := by
  cases node <;> simp [isDirectory]

/-- No name leads anywhere from a node that is no directory. -/
theorem descend?_cons_of_leaf {node : FileNode} (h : node.isDirectory = false) (name : String)
    (rest : List String) : node.descend? (name :: rest) = none := by
  cases node with
  | file bytes => rfl
  | unreadable error => rfl
  | directory entries => cases h

theorem reachable_of_leaf {node : FileNode} (h : node.isDirectory = false) :
    node.reachable = [([], node)] := by
  cases node with
  | file bytes => rfl
  | unreadable error => rfl
  | directory entries => cases h

theorem reachableIn_eq_flatMap (entries : List (String × FileNode)) :
    reachableIn entries = entries.flatMap fun entry =>
      entry.2.reachable.map fun found => (entry.1 :: found.1, found.2) := by
  induction entries with
  | nil => rfl
  | cons entry rest ih => rw [reachableIn, ih, List.flatMap_cons]

theorem descend?_append (node : FileNode) (names more : List String) :
    node.descend? (names ++ more) = (node.descend? names).bind (descend? · more) := by
  induction names generalizing node with
  | nil => rfl
  | cons name rest ih =>
    -- without an entry of the name both chains break off
    rw [List.cons_append, descend?, descend?]
    cases node.entry? name with
    | none => rfl
    | some child => exact ih child

/-- A name leads to the entry that has it. -/
theorem Proper.entry?_eq_some_iff {entries : List (String × FileNode)}
    (h : Proper (.directory entries)) {name : String} {child : FileNode} :
    entry? (.directory entries) name = some child ↔ (name, child) ∈ entries := by
  cases h with
  | leaf h => cases h
  | directory nodup named below =>
    simp only [Option.map_eq_some_iff, entry?]
    constructor
    · rintro ⟨entry, hfound, rfl⟩
      have hname : entry.1 = name := by simpa using List.find?_some hfound
      exact hname ▸ List.mem_of_find?_eq_some hfound
    · intro hmem
      obtain ⟨entry, hfound⟩ : ∃ entry, entries.find? (·.1 == name) = some entry := by
        rw [← Option.isSome_iff_exists, List.find?_isSome]
        exact ⟨(name, child), hmem, beq_self_eq_true name⟩
      have hname : entry.1 = name := by simpa using List.find?_some hfound
      -- of two entries under one name there is only one
      have hsame : entry = (name, child) :=
        List.inj_on_of_nodup_map nodup (List.mem_of_find?_eq_some hfound) hmem hname
      exact ⟨entry, hfound, by rw [hsame]⟩

/-- The list of reachable nodes tells where every chain of names leads. -/
theorem Proper.mem_reachable_iff {node : FileNode} (h : node.Proper) {names : List String}
    {found : FileNode} : (names, found) ∈ node.reachable ↔ node.descend? names = some found := by
  induction h generalizing names with
  | leaf h =>
    cases names with
    | nil => simp [reachable_of_leaf h, descend?, eq_comm]
    | cons name rest => simp [reachable_of_leaf h, descend?_cons_of_leaf h]
  | @directory entries nodup named below ih =>
    have hproper : Proper (.directory entries) := .directory nodup named below
    cases names with
    | nil => simp [reachable, descend?, reachableIn_eq_flatMap, eq_comm]
    | cons name rest =>
      simp only [reachable, reachableIn_eq_flatMap, List.mem_cons, Prod.mk.injEq, reduceCtorEq,
        false_and, false_or, List.mem_flatMap, List.mem_map, List.cons.injEq, descend?,
        Option.bind_eq_some_iff, hproper.entry?_eq_some_iff]
      constructor
      · rintro ⟨entry, hentry, reached, hreached, ⟨rfl, rfl⟩, rfl⟩
        exact ⟨entry.2, hentry, (ih entry hentry).1 hreached⟩
      · rintro ⟨child, hchild, hrest⟩
        exact ⟨(name, child), hchild, (rest, found), (ih _ hchild).2 hrest, ⟨rfl, rfl⟩, rfl⟩

theorem Proper.nodup_reachable {node : FileNode} (h : node.Proper) :
    (node.reachable.map Prod.fst).Nodup := by
  induction h with
  | leaf h => simp [reachable_of_leaf h]
  | @directory entries nodup named below ih =>
    have hchildren : ∀ entry ∈ entries,
        ((entry.2.reachable.map fun found => (entry.1 :: found.1, found.2)).map
          Prod.fst).Nodup := by
      intro entry hentry
      rw [List.map_map]
      have hcons := (ih entry hentry).map (List.cons_injective (a := entry.1))
      rwa [List.map_map] at hcons
    rw [reachable, reachableIn_eq_flatMap, List.map_cons, List.nodup_cons, List.map_flatMap]
    refine ⟨by simp, List.nodup_flatMap.2 ⟨hchildren, ?_⟩⟩
    -- chains through two entries differ in their first name
    refine (List.pairwise_map.1 nodup).imp fun {first second} hne => ?_
    refine List.disjoint_left.2 ?_
    simp only [List.map_map, List.mem_map, Function.comp_apply, not_exists, not_and]
    rintro names ⟨found, -, rfl⟩ other - heq
    exact hne (List.cons.inj heq).1.symm

/-- What lies strictly below a directory. -/
theorem Proper.mem_reachableIn_iff {entries : List (String × FileNode)}
    (h : Proper (.directory entries)) {names : List String} {found : FileNode} :
    (names, found) ∈ reachableIn entries ↔
      names ≠ [] ∧ (FileNode.directory entries).descend? names = some found := by
  rw [← h.mem_reachable_iff, reachable, List.mem_cons, Prod.mk.injEq]
  have hne : (names, found) ∈ reachableIn entries → names ≠ [] := by
    rw [reachableIn_eq_flatMap]
    intro hmem
    obtain ⟨entry, -, hentry⟩ := List.mem_flatMap.1 hmem
    obtain ⟨reached, -, heq⟩ := List.mem_map.1 hentry
    rw [← (Prod.mk.inj heq).1]
    exact List.cons_ne_nil _ _
  tauto

theorem Proper.nodup_reachableIn {entries : List (String × FileNode)}
    (h : Proper (.directory entries)) : ((reachableIn entries).map Prod.fst).Nodup := by
  have hnodup := h.nodup_reachable
  rw [reachable, List.map_cons] at hnodup
  exact hnodup.of_cons

theorem Proper.descend? {node : FileNode} (h : node.Proper) {names : List String}
    {found : FileNode} (hfound : node.descend? names = some found) : found.Proper := by
  induction h generalizing names with
  | leaf h =>
    cases names with
    | nil => exact Option.some.inj hfound ▸ .leaf h
    | cons name rest => cases (descend?_cons_of_leaf h name rest).symm.trans hfound
  | @directory entries nodup named below ih =>
    have hproper : Proper (.directory entries) := .directory nodup named below
    cases names with
    | nil => exact Option.some.inj hfound ▸ hproper
    | cons name rest =>
      obtain ⟨child, hchild, hrest⟩ := Option.bind_eq_some_iff.1 hfound
      exact ih _ (hproper.entry?_eq_some_iff.1 hchild) hrest

/-- Only names that entries can have lead anywhere. -/
theorem Proper.isEntryName_of_descend? {node : FileNode} (h : node.Proper) {names : List String}
    {found : FileNode} (hfound : node.descend? names = some found) :
    ∀ name ∈ names, IsEntryName name := by
  induction h generalizing names with
  | leaf h =>
    cases names with
    | nil => simp
    | cons name rest => cases (descend?_cons_of_leaf h name rest).symm.trans hfound
  | @directory entries nodup named below ih =>
    have hproper : Proper (.directory entries) := .directory nodup named below
    cases names with
    | nil => simp
    | cons name rest =>
      obtain ⟨child, hchild, hrest⟩ := Option.bind_eq_some_iff.1 hfound
      have hmem := hproper.entry?_eq_some_iff.1 hchild
      intro other hother
      rcases List.mem_cons.1 hother with rfl | hother
      · exact named _ hmem
      · exact ih _ hmem hrest other hother

end FileNode

/-! ## Following a path -/

namespace FileTree

open FileNode (descend?_append)

/-- A directory lies at a place. -/
def HasDirectory (tree : FileTree) (place : List String) : Prop :=
  ∃ entries, tree.root.descend? place = some (.directory entries)

/-- Where the pieces of a path start. -/
def startOf (tree : FileTree) (p : Path) : List String :=
  if p.isAbsolute then [] else tree.workingDirectory

variable {tree : FileTree} {place next : List String} {piece : String}

theorem hasDirectory_of_descend? {node : FileNode} (hnode : tree.root.descend? place = some node)
    (h : node.isDirectory = true) : tree.HasDirectory place := by
  obtain ⟨entries, rfl⟩ := FileNode.isDirectory_iff_exists.1 h
  exact ⟨entries, hnode⟩

theorem hasDirectory_of_isSome {name : String} {rest : List String}
    (h : (tree.root.descend? (place ++ name :: rest)).isSome) : tree.HasDirectory place := by
  rw [descend?_append] at h
  cases hnode : tree.root.descend? place with
  | none => simp [hnode] at h
  | some node =>
    cases hdirectory : node.isDirectory with
    | false => simp [hnode, FileNode.descend?_cons_of_leaf hdirectory] at h
    | true => exact hasDirectory_of_descend? hnode hdirectory

/-- One more piece is followed from a directory only. -/
theorem hasDirectory_of_step (h : tree.step place piece = .ok next) : tree.HasDirectory place := by
  unfold step at h
  cases hnode : tree.root.descend? place with
  | none => simp [hnode] at h
  | some node =>
    cases hdirectory : node.isDirectory with
    | false => simp [hnode, hdirectory] at h
    | true => exact hasDirectory_of_descend? hnode hdirectory

theorem step_of_stays (h : tree.HasDirectory place) (hpiece : piece = "" ∨ piece = ".") :
    tree.step place piece = .ok place := by
  obtain ⟨entries, hnode⟩ := h
  simp [step, hnode, FileNode.isDirectory, hpiece]

/-- A name leads from a directory to the entry that has it. -/
theorem step_name (h : tree.HasDirectory place) (hname : IsEntryName piece) :
    tree.step place piece =
      if (tree.root.descend? (place ++ [piece])).isSome then .ok (place ++ [piece])
      else .error .notFound := by
  obtain ⟨entries, hnode⟩ := h
  -- the step looks the entry up in the directory, the chain of names from the root
  have hentry : tree.root.descend? (place ++ [piece]) =
      FileNode.entry? (.directory entries) piece := by
    rw [descend?_append, hnode, Option.bind_some, FileNode.descend?]
    exact Option.bind_fun_some _
  simp [step, hnode, FileNode.isDirectory, hname.ne_empty, hname.ne_dot, hname.ne_dots, hentry]

/-- Names that lead anywhere are followed one by one. -/
theorem step_of_isSome {name : String} {rest : List String} (hroot : tree.root.Proper)
    (h : (tree.root.descend? (place ++ name :: rest)).isSome) :
    IsEntryName name ∧ tree.step place name = .ok (place ++ [name]) := by
  obtain ⟨node, hnode⟩ := Option.isSome_iff_exists.1 h
  have hname : IsEntryName name := hroot.isEntryName_of_descend? hnode name (by simp)
  have hnext : (tree.root.descend? (place ++ [name])).isSome := by
    rw [List.append_cons, descend?_append] at h
    exact Option.isSome_of_isSome_bind h
  exact ⟨hname, by rw [step_name (hasDirectory_of_isSome h) hname, if_pos hnext]⟩

/-- A piece that is followed leads to something. -/
theorem isSome_of_step (hpiece : Path.IsPiece piece) (h : tree.step place piece = .ok next) :
    (tree.root.descend? next).isSome := by
  have hdirectory := hasDirectory_of_step h
  by_cases hstays : piece = "" ∨ piece = "."
  · rw [step_of_stays hdirectory hstays] at h
    obtain ⟨entries, hnode⟩ := hdirectory
    rw [← Except.ok.inj h, hnode]
    rfl
  · rw [not_or] at hstays
    by_cases hup : piece = ".."
    · obtain ⟨entries, hnode⟩ := hdirectory
      subst hup
      have hnext : place.dropLast = next := by
        simpa [step, hnode, FileNode.isDirectory] using h
      rw [← hnext]
      -- the root is the directory above itself
      rcases List.eq_nil_or_concat' place with rfl | ⟨above, last, rfl⟩
      · rfl
      · have hbelow : (tree.root.descend? (above ++ last :: [])).isSome := by
          rw [hnode]
          rfl
        obtain ⟨others, hnode⟩ := hasDirectory_of_isSome hbelow
        rw [List.dropLast_concat, hnode]
        rfl
    · rw [step_name hdirectory ⟨hpiece, hstays.1, hstays.2, hup⟩] at h
      split at h
      · rename_i hsome
        rwa [← Except.ok.inj h]
      · cases h

theorem locate_eq {p : Path} (hp : p.text ≠ "") :
    tree.locate p = p.pieces.foldlM tree.step (tree.startOf p) := by
  rw [locate, if_neg hp, startOf]

theorem find_of_locate {p : Path} {node : FileNode} (h : tree.locate p = .ok place)
    (hnode : tree.root.descend? place = some node) : tree.find p = .ok node := by
  simp [find, h, hnode, bind, Except.bind]

theorem isDirectory_iff {p : Path} : tree.isDirectory p = true ↔
    ∃ place entries, tree.locate p = .ok place ∧
      tree.root.descend? place = some (.directory entries) := by
  rw [isDirectory, find]
  cases hlocate : tree.locate p with
  | error error => simp [bind, Except.bind, Except.toOption]
  | ok place =>
    cases hnode : tree.root.descend? place with
    | none => simp [hnode, bind, Except.bind, Except.toOption]
    | some node => cases node <;>
        simp [hnode, bind, Except.bind, Except.toOption, FileNode.isDirectory]

/-- A file that was written from a text reads as that text. -/
theorem readText_of_find {p : Path} {text : String} (h : tree.find p = .ok (.file text.toUTF8)) :
    tree.readText p = .ok text := by
  have hdecode : String.fromUTF8? text.toUTF8 = some text := dif_pos text.isValidUTF8
  rw [readText, h]
  simp only [bind, Except.bind, hdecode]

/-- To read a file that cannot be read fails with what the system says. -/
theorem readText_of_unreadable {p : Path} {error : SystemError}
    (h : tree.find p = .ok (.unreadable error)) : tree.readText p = .error (.refused error) := by
  rw [readText, h]
  rfl

theorem contains_of_isDirectory {p : Path} (h : tree.isDirectory p = true) :
    tree.contains p = true := by
  obtain ⟨place, entries, hlocate, hnode⟩ := isDirectory_iff.1 h
  rw [contains, find_of_locate hlocate hnode]
  rfl

theorem text_ne_of_locate {p : Path} (h : tree.locate p = .ok place) : p.text ≠ "" := by
  intro hempty
  simp [locate, hempty] at h

/-- The first of some pieces is followed if all of them are. -/
theorem exists_step_of_foldlM {pieces : List String}
    (h : (piece :: pieces).foldlM tree.step place = .ok next) :
    ∃ middle, tree.step place piece = .ok middle ∧ pieces.foldlM tree.step middle = .ok next := by
  rw [List.foldlM_cons] at h
  cases hstep : tree.step place piece with
  | error error =>
    rw [hstep] at h
    cases h
  | ok middle =>
    rw [hstep] at h
    exact ⟨middle, rfl, h⟩

/-- Pieces that stay lead nowhere else. -/
theorem foldlM_of_stays {pieces : List String} (h : tree.HasDirectory place)
    (hpieces : ∀ piece ∈ pieces, piece = "" ∨ piece = ".") :
    pieces.foldlM tree.step place = .ok place := by
  induction pieces with
  | nil => rfl
  | cons piece rest ih =>
    rw [List.foldlM_cons, step_of_stays h (hpieces piece List.mem_cons_self)]
    exact ih fun other hother => hpieces other (List.mem_cons_of_mem _ hother)

theorem foldlM_concat {pieces start : List String}
    (h : pieces.foldlM tree.step start = .ok place) :
    (pieces ++ [piece]).foldlM tree.step start = tree.step place piece := by
  rw [List.foldlM_append, h]
  exact bind_pure (tree.step place piece)

/-- A path leads where it leads without a slash at its end. -/
theorem foldlM_steps {p : Path} (h : tree.locate p = .ok place) :
    p.steps.foldlM tree.step (tree.startOf p) = .ok place := by
  rw [locate_eq (text_ne_of_locate h)] at h
  rcases p.pieces_eq_steps with hsteps | hsteps
  · rwa [hsteps] at h
  · cases hfold : p.steps.foldlM tree.step (tree.startOf p) with
    | error error =>
      rw [hsteps, List.foldlM_append, hfold] at h
      cases h
    | ok before =>
      rw [hsteps, foldlM_concat hfold] at h
      rwa [step_of_stays (hasDirectory_of_step h) (Or.inl rfl)] at h

/-- A piece that is joined to a path is followed from where the path leads. -/
theorem locate_join {p : Path} (h : tree.locate p = .ok place) (hpiece : Path.IsPiece piece) :
    tree.locate (p.join ⟨piece⟩) = tree.step place piece := by
  have hp := text_ne_of_locate h
  have hrelative := Path.isAbsolute_of_isPiece hpiece
  rw [locate_eq (Path.text_join_ne hp hrelative), Path.pieces_join hp hrelative,
    Path.pieces_of_isPiece hpiece, startOf, Path.isAbsolute_join hp hrelative, ← startOf,
    foldlM_concat (foldlM_steps h)]

/-- A node that lies below a directory, at any depth, and its place. -/
def Below (tree : FileTree) (directory : Path) (place : List String) (node : FileNode) : Prop :=
  ∃ base names, tree.locate directory = .ok base ∧ names ≠ [] ∧ place = base ++ names ∧
    tree.root.descend? place = some node

theorem Below.descend? {directory : Path} {node : FileNode} (h : tree.Below directory place node) :
    tree.root.descend? place = some node := by
  obtain ⟨base, names, -, -, -, hnode⟩ := h
  exact hnode

/-- Everything strictly below a place, by the names that lead there from the root. -/
theorem mem_reachableIn_iff {entries : List (String × FileNode)} (hroot : tree.root.Proper)
    (h : tree.root.descend? place = some (.directory entries)) {names : List String}
    {found : FileNode} :
    (names, found) ∈ FileNode.reachableIn entries ↔
      names ≠ [] ∧ tree.root.descend? (place ++ names) = some found := by
  rw [(hroot.descend? h).mem_reachableIn_iff, descend?_append, h, Option.bind_some]

/-! ## Lists of paths -/

/-- Paths that lead to exactly the nodes that are wanted, to each of them by one path. -/
structure Lists (tree : FileTree) (wanted : List String → FileNode → Prop) (paths : List Path) :
    Prop where
  /-- No two paths lead to the same place. -/
  nodup : (paths.map tree.locate).Nodup
  /-- The paths lead to where a node is wanted, and to nowhere else. -/
  mem_iff : ∀ found, found ∈ paths.map tree.locate ↔
    ∃ place node, found = .ok place ∧ wanted place node

variable {wanted others : List String → FileNode → Prop} {paths rest : List Path}

theorem Lists.exists_of_mem (h : tree.Lists wanted paths) {p : Path} (hp : p ∈ paths) :
    ∃ place node, tree.locate p = .ok place ∧ wanted place node :=
  (h.mem_iff _).1 (List.mem_map_of_mem hp)

theorem Lists.perm (h : tree.Lists wanted paths) (hperm : rest.Perm paths) :
    tree.Lists wanted rest where
  nodup := (hperm.map tree.locate).nodup_iff.2 h.nodup
  mem_iff found := (hperm.map tree.locate).mem_iff.trans (h.mem_iff found)

theorem Lists.sort (h : tree.Lists wanted paths) : tree.Lists wanted (Path.sort paths) :=
  h.perm (List.mergeSort_perm paths _)

theorem Lists.append (h : tree.Lists wanted paths) (hrest : tree.Lists others rest)
    (hdisjoint : ∀ place node other, wanted place node → ¬ others place other) :
    tree.Lists (fun place node => wanted place node ∨ others place node) (paths ++ rest) where
  nodup := by
    rw [List.map_append, List.nodup_append]
    refine ⟨h.nodup, hrest.nodup, ?_⟩
    rintro found hfound _ hother rfl
    obtain ⟨place, node, rfl, hnode⟩ := (h.mem_iff _).1 hfound
    obtain ⟨_, other, heq, hother⟩ := (hrest.mem_iff _).1 hother
    obtain rfl := Except.ok.inj heq
    exact hdisjoint _ _ _ hnode hother
  mem_iff found := by
    rw [List.map_append, List.mem_append, h.mem_iff, hrest.mem_iff]
    constructor
    · rintro (⟨place, node, hfound, hnode⟩ | ⟨place, node, hfound, hnode⟩)
      · exact ⟨place, node, hfound, Or.inl hnode⟩
      · exact ⟨place, node, hfound, Or.inr hnode⟩
    · rintro ⟨place, node, hfound, hnode | hnode⟩
      · exact Or.inl ⟨place, node, hfound, hnode⟩
      · exact Or.inr ⟨place, node, hfound, hnode⟩

/-- Of the paths, those to regular files. -/
theorem Lists.files (h : tree.Lists wanted paths)
    (hplaced : ∀ place node, wanted place node → tree.root.descend? place = some node) :
    tree.Lists (fun place node => wanted place node ∧ node.isDirectory = false)
      (paths.filter tree.isFile) where
  nodup := h.nodup.sublist (List.filter_sublist.map tree.locate)
  mem_iff found := by
    have hisFile : ∀ {p place node}, tree.locate p = .ok place → wanted place node →
        (tree.isFile p = true ↔ node.isDirectory = false) := by
      intro p place node hlocate hnode
      rw [isFile, find_of_locate hlocate (hplaced place node hnode)]
      simp [Except.toOption]
    simp only [List.mem_map, List.mem_filter]
    constructor
    · rintro ⟨p, ⟨hp, hfile⟩, rfl⟩
      obtain ⟨place, node, hlocate, hnode⟩ := h.exists_of_mem hp
      exact ⟨place, node, hlocate, hnode, (hisFile hlocate hnode).1 hfile⟩
    · rintro ⟨place, node, rfl, hnode, hfile⟩
      obtain ⟨p, hp, hlocate⟩ := List.mem_map.1 ((h.mem_iff _).2 ⟨place, node, rfl, hnode⟩)
      exact ⟨p, ⟨hp, (hisFile hlocate hnode).2 hfile⟩, hlocate⟩

end FileTree

end Station
