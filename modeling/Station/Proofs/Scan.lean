import Station.Content
import Station.Proofs.Glob

/-!
# What a scan finds below a directory

A scan follows the literal components at the start of a pattern as the path that they spell is
followed (`find_literals`). Behind them, the chain `**` and a pattern for an extension find
everything below whose name ends that way (`find_chain_extension`).

The text of a directory is part of the pattern that is scanned for. Where it stands for itself there
(`Path.Verbatim`), the paths that the scan yields lead to everything below the directory that has
the extension, each to something else (`scanContent_places`).
-/

namespace Station

open FileNode (reachableIn)
open Station.Path (IsPiece)

variable {tree : FileTree} {p directory : Path} {place : List String}

namespace Glob

/-! ## Following literal components -/

theorem literal?_literals (text : String) : literal? (literals text) = some text := by
  have hall : ∀ characters : List Char,
      literal? (characters.map .literal) = some (String.ofList characters) := by
    intro characters
    induction characters with
    | nil => rfl
    | cons c rest ih =>
      rw [List.map_cons, literal?, ih, Option.map_some, ← String.ofList_append]
      rfl
  rw [literals, hall, String.ofList_toList]

/-- From the working directory only a piece that is not empty can be followed by its name. -/
theorem locate_entryPath {piece : String} (h : tree.locate p = .ok place) (hpiece : IsPiece piece)
    (hhere : isHere p = true → piece ≠ "") :
    tree.locate (entryPath p piece) = tree.step place piece := by
  by_cases hp : isHere p = true
  · -- the dots of the path stay in the working directory, where the piece alone starts too
    obtain ⟨habsolute, rest, hpieces, hstays⟩ := isHere_iff.1 hp
    have hplace : tree.workingDirectory = place := by
      rw [FileTree.locate_eq (FileTree.text_ne_of_locate h), hpieces, FileTree.startOf,
        habsolute] at h
      obtain ⟨middle, hstep, hrest⟩ := FileTree.exists_step_of_foldlM h
      have hdirectory := FileTree.hasDirectory_of_step hstep
      have hstay := FileTree.step_of_stays hdirectory (Or.inr rfl)
      obtain rfl := Except.ok.inj (hstay.symm.trans hstep)
      exact Except.ok.inj ((FileTree.foldlM_of_stays hdirectory hstays).symm.trans hrest)
    rw [entryPath, if_pos hp, FileTree.locate_eq (hhere hp), Path.pieces_of_isPiece hpiece,
      FileTree.startOf, Path.isAbsolute_of_isPiece hpiece, ← hplace]
    exact bind_pure (tree.step tree.workingDirectory piece)
  · rw [entryPath, if_neg hp]
    exact FileTree.locate_join h hpiece

theorem find_literal (tree : FileTree) (piece : String) (rest : List (List Token)) (p : Path) :
    find tree (literals piece :: rest) p =
      if (if piece = "." || piece = ".." then tree.isDirectory p
        else tree.contains (entryPath p piece)) then find tree rest (entryPath p piece)
      else [] := by
  rw [find.eq_def]
  simp only [literal?_literals]
  rfl

/-- A component that stands for itself is followed if the piece can be. -/
theorem find_literal_cons {piece : String} {next : List String} (h : tree.locate p = .ok place)
    (hpiece : IsPiece piece) (hhere : isHere p = true → piece ≠ "")
    (hstep : tree.step place piece = .ok next) (rest : List (List Token)) :
    find tree (literals piece :: rest) p = find tree rest (entryPath p piece) := by
  have hdirectory : tree.isDirectory p = true := by
    obtain ⟨entries, hnode⟩ := FileTree.hasDirectory_of_step hstep
    rw [FileTree.isDirectory, FileTree.find_of_locate h hnode]
    rfl
  have hcontains : tree.contains (entryPath p piece) = true := by
    obtain ⟨node, hnode⟩ := Option.isSome_iff_exists.1 (FileTree.isSome_of_step hpiece hstep)
    have hlocate := (locate_entryPath h hpiece hhere).trans hstep
    rw [FileTree.contains, FileTree.find_of_locate hlocate hnode]
    rfl
  have hfound : (if piece = "." || piece = ".." then tree.isDirectory p
      else tree.contains (entryPath p piece)) = true := by
    split
    · exact hdirectory
    · exact hcontains
  rw [find_literal]
  exact if_pos hfound

/-- Components that stand for themselves are followed as the path that they spell. In the working
directory, the first piece that is not a dot must not be empty. -/
theorem find_literals {pieces last : List String} (h : tree.locate p = .ok place)
    (hpieces : ∀ piece ∈ pieces, IsPiece piece)
    (hfollow : pieces.foldlM tree.step place = .ok last)
    (hhere : isHere p = true → (pieces.dropWhile (· == ".")).head? ≠ some "")
    (rest : List (List Token)) :
    find tree (pieces.map literals ++ rest) p = find tree rest (pieces.foldl entryPath p) ∧
      tree.locate (pieces.foldl entryPath p) = .ok last := by
  induction pieces generalizing p place with
  | nil =>
    refine ⟨rfl, ?_⟩
    rw [List.foldl_nil, h]
    exact hfollow
  | cons piece pieces ih =>
    have hpiece := hpieces piece List.mem_cons_self
    have hfirst : isHere p = true → piece ≠ "" := by
      rintro hp rfl
      exact hhere hp rfl
    obtain ⟨next, hstep, hrest⟩ := FileTree.exists_step_of_foldlM hfollow
    have hlocate := (locate_entryPath h hpiece hfirst).trans hstep
    rw [List.map_cons, List.cons_append, find_literal_cons h hpiece hfirst hstep, List.foldl_cons]
    refine ih hlocate (fun other hother => hpieces other (List.mem_cons_of_mem _ hother))
      hrest fun hnext => ?_
    -- only a dot leads from the working directory to a path that stands for it
    by_cases hp : isHere p = true
    · rw [entryPath, if_pos hp] at hnext
      obtain ⟨-, others, hdot, -⟩ := isHere_iff.1 hnext
      rw [Path.pieces_of_isPiece hpiece] at hdot
      have hpieceDot : piece = "." := (List.cons.inj hdot).1
      have hdrop := hhere hp
      rwa [hpieceDot] at hdrop
    · rw [entryPath, if_neg hp] at hnext
      exact absurd (isHere_of_join (FileTree.text_ne_of_locate h) hpiece hnext) hp

/-! ## Everything below -/

/-- The path that goes down from another one along some names. -/
def below (p : Path) (names : List String) : Path :=
  names.foldl (fun q name => q.join ⟨name⟩) p

/-- The path by which a scan of a directory calls what some names lead to. -/
def pathTo (p : Path) : List String → Path
  | [] => p
  | name :: rest => below (entryPath p name) rest

mutual

theorem withDescendants_eq (path : Path) (name : String) (node : FileNode) :
    withDescendants path name node =
      node.reachable.map fun found => (below path found.1, found.1.getLastD name) := by
  cases node with
  | file bytes => rfl
  | unreadable error => rfl
  | directory entries =>
    rw [withDescendants, FileNode.reachable, List.map_cons, descendants_eq path name entries]
    rfl

theorem descendants_eq (path : Path) (name : String) (entries : List (String × FileNode)) :
    descendants path entries =
      (reachableIn entries).map fun found => (below path found.1, found.1.getLastD name) := by
  match entries with
  | [] => rfl
  | (first, node) :: rest =>
    rw [descendants, FileNode.reachableIn, List.map_append, List.map_map,
      withDescendants_eq _ first node, descendants_eq path name rest]
    simp only [Function.comp_def, List.getLastD_cons, below, List.foldl_cons]

end

theorem allBelow_eq {entries : List (String × FileNode)}
    (h : tree.find p = .ok (.directory entries)) :
    allBelow tree p =
      (reachableIn entries).map fun found => (pathTo p found.1, found.1.getLastD "") := by
  rw [allBelow, h, FileNode.reachableIn_eq_flatMap, List.map_flatMap]
  refine congrArg (fun f => List.flatMap f entries) (funext fun entry => ?_)
  obtain ⟨name, child⟩ := entry
  simp only [withDescendants_eq, List.map_map, Function.comp_def, List.getLastD_cons, pathTo]

/-- The name that a chain of names ends with has an extension. -/
def HasExtension (extension : String) (names : List String) : Prop :=
  ("." ++ extension).toList <:+ (names.getLastD "").toList

instance (extension : String) (names : List String) : Decidable (HasExtension extension names) :=
  inferInstanceAs (Decidable (_ <:+ _))

/-- Only the last name counts. -/
theorem hasExtension_append {extension : String} (place : List String) {names : List String}
    (h : names ≠ []) : HasExtension extension (place ++ names) ↔ HasExtension extension names := by
  rw [HasExtension, HasExtension, List.getLastD_eq_getLast?, List.getLastD_eq_getLast?,
    List.getLast?_append, List.getLast?_eq_some_getLast h, Option.some_or]

/-- What the entries of a directory lead to under a name that has an extension. -/
def withExtension (extension : String) (entries : List (String × FileNode)) :
    List (List String × FileNode) :=
  (reachableIn entries).filter fun found => HasExtension extension found.1

/-- The chain and an extension find whatever lies below a directory and has the extension. -/
theorem find_chain_extension {entries : List (String × FileNode)} (extension : String)
    (h : tree.find p = .ok (.directory entries)) :
    find tree [[.anyChain], .anyRun :: literals ("." ++ extension)] p =
      (withExtension extension entries).map fun found => pathTo p found.1 := by
  have hdirectory : tree.isDirectory p = true := by
    rw [FileTree.isDirectory, h]
    rfl
  have hmatches : ∀ names : List String,
      matchesAll (.anyRun :: literals ("." ++ extension)) (names.getLastD "").toList =
        decide (HasExtension extension names) := by
    intro names
    rw [Bool.eq_iff_iff, decide_eq_true_iff]
    exact matchesAll_anyRun _ _
  have hkeep : ∀ found : List (List String × FileNode),
      (found.flatMap fun found =>
        if HasExtension extension found.1 then [pathTo p found.1] else []) =
        (found.filter fun found => HasExtension extension found.1).map
          fun found => pathTo p found.1 := by
    intro found
    induction found with
    | nil => rfl
    | cons first rest ih => by_cases hfirst : HasExtension extension first.1 <;> simp [hfirst, ih]
  have hchain : find tree [[.anyChain], .anyRun :: literals ("." ++ extension)] p =
      (allBelow tree p).flatMap fun found =>
        if matchesAll (.anyRun :: literals ("." ++ extension)) found.2.toList then [found.1]
        else [] := by
    rw [find.eq_def]
    simp [literal?, hdirectory, isChain, find]
  rw [hchain, allBelow_eq h, List.flatMap_map, withExtension, ← hkeep]
  simp only [hmatches, decide_eq_true_eq]

theorem locate_below {names : List String} (hroot : tree.root.Proper)
    (h : tree.locate p = .ok place) (hnames : (tree.root.descend? (place ++ names)).isSome) :
    tree.locate (below p names) = .ok (place ++ names) := by
  induction names generalizing p place with
  | nil => rw [List.append_nil, below, List.foldl_nil, h]
  | cons name rest ih =>
    obtain ⟨hname, hstep⟩ := FileTree.step_of_isSome hroot hnames
    rw [List.append_cons] at hnames ⊢
    exact ih ((FileTree.locate_join h hname.isPiece).trans hstep) hnames

/-- The path of what a scan finds leads there. -/
theorem locate_pathTo {names : List String} (hroot : tree.root.Proper)
    (h : tree.locate p = .ok place) (hnames : (tree.root.descend? (place ++ names)).isSome) :
    tree.locate (pathTo p names) = .ok (place ++ names) := by
  cases names with
  | nil => rw [List.append_nil, pathTo, h]
  | cons name rest =>
    obtain ⟨hname, hstep⟩ := FileTree.step_of_isSome hroot hnames
    rw [List.append_cons] at hnames ⊢
    have hlocate := locate_entryPath h hname.isPiece fun _ => hname.ne_empty
    exact locate_below hroot (hlocate.trans hstep) hnames

end Glob

/-! ## Directories that stand for themselves -/

/-- A directory whose text, as the beginning of a pattern, stands for itself. -/
structure Path.Verbatim (p : Path) : Prop where
  /-- There is no wildcard in it. -/
  isLiteral : Glob.IsLiteral p.text.toList
  /-- Nothing but dots comes before two slashes at the start of a relative path: a scan would look
  for an entry without a name in the working directory. -/
  starts : p.isAbsolute = true ∨ (p.steps.dropWhile (· == ".")).head? ≠ some ""

namespace Glob

/-- The path where a scan starts to follow a pattern. -/
def scanStart (directory : Path) : Path := if directory.isAbsolute then ⟨"/"⟩ else ⟨"."⟩

/-- The components in front of the chain. -/
def scanSteps (directory : Path) : List String :=
  if directory.isAbsolute then directory.steps.drop 1 else directory.steps

/-- The path by which a scan calls the directory itself. -/
def scanBase (directory : Path) : Path :=
  (scanSteps directory).foldl entryPath (scanStart directory)

/-- A path is followed from where a scan starts, along its components. -/
theorem locate_scanStart (h : tree.locate directory = .ok place) :
    tree.locate (scanStart directory) = .ok (tree.startOf directory) ∧
      (scanSteps directory).foldlM tree.step (tree.startOf directory) = .ok place := by
  obtain ⟨first, rest, hsteps⟩ := List.exists_cons_of_ne_nil directory.steps_ne_nil
  have hfollow := FileTree.foldlM_steps h
  rw [hsteps] at hfollow
  obtain ⟨middle, hstep, hrest⟩ := FileTree.exists_step_of_foldlM hfollow
  have hstart := FileTree.hasDirectory_of_step hstep
  constructor
  · have hstays : ∀ piece ∈ (scanStart directory).pieces, piece = "" ∨ piece = "." := by
      rw [scanStart]
      split <;> decide
    have hsame : tree.startOf (scanStart directory) = tree.startOf directory := by
      rw [scanStart, FileTree.startOf, FileTree.startOf]
      cases directory.isAbsolute <;> rfl
    rw [FileTree.locate_eq (by rw [scanStart]; split <;> decide), hsame]
    exact FileTree.foldlM_of_stays hstart hstays
  · rw [scanSteps, hsteps]
    split
    · -- the first step of an absolute path stays in the root
      rename_i habsolute
      obtain ⟨others, hothers⟩ := Path.steps_of_isAbsolute habsolute
      obtain ⟨rfl, rfl⟩ := List.cons.inj (hsteps.symm.trans hothers)
      obtain rfl := Except.ok.inj ((FileTree.step_of_stays hstart (Or.inl rfl)).symm.trans hstep)
      exact hrest
    · exact hfollow

/-- The pieces of the pattern for an extension. -/
theorem pieces_contentPattern {extension : String} (hdirectory : directory.text ≠ "")
    (hextension : IsPiece extension) :
    (contentPattern directory extension).pieces = directory.steps ++ ["**", "*." ++ extension] := by
  have hchain : IsPiece "**" := by decide
  have hname : IsPiece ("*." ++ extension) := by simpa [IsPiece] using hextension
  rw [contentPattern,
    Path.pieces_join (Path.text_join_ne hdirectory (Path.isAbsolute_of_isPiece hchain))
      (Path.isAbsolute_of_isPiece hname),
    Path.steps_join hdirectory hchain (by decide), Path.pieces_of_isPiece hname,
    List.append_assoc]
  rfl

theorem isAbsolute_contentPattern {extension : String} (hdirectory : directory.text ≠ "")
    (hextension : IsPiece extension) :
    (contentPattern directory extension).isAbsolute = directory.isAbsolute := by
  have hchain : IsPiece "**" := by decide
  have hname : IsPiece ("*." ++ extension) := by simpa [IsPiece] using hextension
  rw [contentPattern,
    Path.isAbsolute_join (Path.text_join_ne hdirectory (Path.isAbsolute_of_isPiece hchain))
      (Path.isAbsolute_of_isPiece hname),
    Path.isAbsolute_join hdirectory (Path.isAbsolute_of_isPiece hchain)]

theorem isLiteral_withSlash (h : IsLiteral directory.text.toList) :
    IsLiteral directory.withSlash.toList := by
  rw [Path.withSlash]
  split
  · exact h
  · intro c hc
    rw [String.toList_append, List.mem_append] at hc
    rcases hc with hc | hc
    · exact h c hc
    · obtain rfl : c = '/' := by simpa using hc
      decide

theorem text_contentPattern {extension : String} (hne : directory.text ≠ "")
    (hpiece : IsPiece extension) :
    (contentPattern directory extension).text = directory.withSlash ++ "**/*." ++ extension := by
  have hchain : (⟨"**"⟩ : Path).isAbsolute = false := by decide
  have hname : (⟨"*." ++ extension⟩ : Path).isAbsolute = false :=
    Path.isAbsolute_of_isPiece (by simpa [IsPiece] using hpiece)
  have hslash : (directory.join ⟨"**"⟩).withSlash = directory.withSlash ++ "**" ++ "/" := by
    rw [Path.withSlash, Path.text_join hne hchain, if_neg]
    simp [List.getLast?_append]
  rw [contentPattern, Path.text_join (Path.text_join_ne hne hchain) hname, hslash]
  simp [← String.toList_inj]

theorem mapM_parse {pieces : List String} (h : ∀ piece ∈ pieces, IsLiteral piece.toList) :
    pieces.mapM parse = .ok (pieces.map literals) := by
  induction pieces with
  | nil => rfl
  | cons piece rest ih =>
    rw [List.mapM_cons, parse_of_isLiteral (h piece List.mem_cons_self),
      ih fun other hother => h other (List.mem_cons_of_mem _ hother)]
    rfl

theorem isLiteral_of_mem_scanSteps (hliteral : IsLiteral directory.text.toList) {piece : String}
    (h : piece ∈ scanSteps directory) : IsPiece piece ∧ IsLiteral piece.toList := by
  have hsteps : piece ∈ directory.steps := by
    rw [scanSteps] at h
    split at h
    · exact List.mem_of_mem_drop h
    · exact h
  have hpieces : piece ∈ directory.pieces := by
    rcases directory.pieces_eq_steps with heq | heq <;> simp [heq, hsteps]
  refine ⟨Path.isPiece_of_mem_pieces hpieces, ?_⟩
  obtain ⟨characters, hmem, rfl⟩ := List.mem_map.1 hpieces
  rw [String.toList_ofList]
  exact fun c hc => hliteral c (Path.mem_of_mem_splitSlash hmem hc).1

/-- The pattern for an extension is scanned component by component. -/
theorem scan_contentPattern {extension : String} (hne : directory.text ≠ "")
    (hliteral : IsLiteral directory.text.toList) (hextension : IsLiteral extension.toList)
    (hpiece : IsPiece extension) :
    scan tree (contentPattern directory extension) =
      .ok (find tree ((scanSteps directory).map literals ++
        [[.anyChain], .anyRun :: literals ("." ++ extension)]) (scanStart directory)) := by
  obtain ⟨tokens, hparse⟩ := parse_below (isLiteral_withSlash hliteral)
    directory.getLast?_withSlash hextension
  rw [← text_contentPattern hne hpiece] at hparse
  have hsplit : (if (contentPattern directory extension).isAbsolute then
        ((⟨"/"⟩ : Path), (contentPattern directory extension).pieces.drop 1)
      else (⟨"."⟩, (contentPattern directory extension).pieces)) =
        (scanStart directory, scanSteps directory ++ ["**", "*." ++ extension]) := by
    rw [isAbsolute_contentPattern hne hpiece, pieces_contentPattern hne hpiece, scanStart,
      scanSteps]
    split
    · rw [List.drop_append_of_le_length (List.length_pos_iff.2 directory.steps_ne_nil)]
    · rfl
  have hcomponents : (scanSteps directory ++ ["**", "*." ++ extension]).mapM parse =
      .ok ((scanSteps directory).map literals ++
        [[.anyChain], .anyRun :: literals ("." ++ extension)]) := by
    rw [List.mapM_append, mapM_parse fun piece hmem => (isLiteral_of_mem_scanSteps hliteral hmem).2,
      List.mapM_cons, List.mapM_cons, parse_chain, parse_extension hextension]
    rfl
  rw [scan, hparse]
  simp only [hsplit, bind, Except.bind, hcomponents]
  rfl

/-- A scan of a directory that stands for itself finds what lies below it and has the extension. -/
theorem scanContent_eq {entries : List (String × FileNode)} (extension : String)
    (hdirectory : directory.Verbatim) (h : tree.locate directory = .ok place)
    (hnode : tree.root.descend? place = some (.directory entries))
    (hextension : IsLiteral extension.toList) (hpiece : IsPiece extension) :
    tree.locate (scanBase directory) = .ok place ∧
      scanContent tree directory extension =
        .ok ((withExtension extension entries).map fun found =>
          pathTo (scanBase directory) found.1) := by
  obtain ⟨hstart, hfollow⟩ := locate_scanStart h
  have hhere : isHere (scanStart directory) = true →
      ((scanSteps directory).dropWhile (· == ".")).head? ≠ some "" := by
    intro hstarts
    cases habsolute : directory.isAbsolute with
    | true =>
      rw [scanStart, habsolute] at hstarts
      exact absurd hstarts (by decide)
    | false =>
      rw [scanSteps, habsolute]
      exact hdirectory.starts.resolve_left (by simp [habsolute])
  have hpieces : ∀ piece ∈ scanSteps directory, IsPiece piece :=
    fun piece hmem => (isLiteral_of_mem_scanSteps hdirectory.isLiteral hmem).1
  obtain ⟨hfind, hbase⟩ := find_literals hstart hpieces hfollow hhere
    [[.anyChain], .anyRun :: literals ("." ++ extension)]
  refine ⟨hbase, ?_⟩
  rw [scanContent, scan_contentPattern (FileTree.text_ne_of_locate h) hdirectory.isLiteral
    hextension hpiece, hfind, find_chain_extension extension (FileTree.find_of_locate hbase hnode)]
  rfl

/-- The paths that a scan finds lead to what lies below the directory and has the extension, each
path to something else. -/
theorem scanContent_places (extension : String) (hroot : tree.root.Proper)
    (hdirectory : directory.Verbatim) (hexists : tree.isDirectory directory = true)
    (hextension : IsLiteral extension.toList) (hpiece : IsPiece extension) :
    ∃ paths, scanContent tree directory extension = .ok paths ∧
      tree.Lists (fun place node => tree.Below directory place node ∧ HasExtension extension place)
        paths := by
  obtain ⟨base, entries, hlocate, hnode⟩ := FileTree.isDirectory_iff.1 hexists
  obtain ⟨hbase, hscan⟩ := scanContent_eq extension hdirectory hlocate hnode hextension hpiece
  have hfound : ∀ {names node}, (names, node) ∈ reachableIn entries ↔
      names ≠ [] ∧ tree.root.descend? (base ++ names) = some node :=
    FileTree.mem_reachableIn_iff hroot hnode
  -- a path leads where its chain of names says
  have hplaces : ((withExtension extension entries).map fun found =>
      pathTo (scanBase directory) found.1).map tree.locate =
      (withExtension extension entries).map fun found => Except.ok (base ++ found.1) := by
    rw [List.map_map]
    refine List.map_congr_left fun found hmem => ?_
    have hreached := hfound.1 (List.mem_of_mem_filter hmem)
    exact locate_pathTo hroot hbase (by rw [hreached.2]; rfl)
  refine ⟨_, hscan, ?_, fun found => ?_⟩
  · have hnames : ((withExtension extension entries).map Prod.fst).Nodup :=
      (hroot.descend? hnode).nodup_reachableIn.sublist (List.filter_sublist.map Prod.fst)
    have hdifferent : Function.Injective fun names => (.ok (base ++ names) : Except FileError _) :=
      fun first second heq => List.append_cancel_left (Except.ok.inj heq)
    have hmap := hnames.map hdifferent
    rw [hplaces]
    rwa [List.map_map] at hmap
  · rw [hplaces]
    simp only [withExtension, List.mem_map, List.mem_filter, decide_eq_true_eq, Prod.exists]
    constructor
    · rintro ⟨names, node, ⟨hmem, hhas⟩, rfl⟩
      obtain ⟨hne, hreached⟩ := hfound.1 hmem
      exact ⟨base ++ names, node, rfl, ⟨base, names, hlocate, hne, rfl, hreached⟩,
        (hasExtension_append base hne).2 hhas⟩
    · rintro ⟨_, node, rfl, ⟨other, names, hother, hne, rfl, hreached⟩, hhas⟩
      obtain rfl := Except.ok.inj (hlocate.symm.trans hother)
      exact ⟨names, node, ⟨hfound.2 ⟨hne, hreached⟩, (hasExtension_append _ hne).1 hhas⟩, rfl⟩

end Glob

end Station
