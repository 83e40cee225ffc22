import Mathlib.Data.List.Sort
import Station.Proofs.FileTree

/-!
# The order of paths

Paths compare by their components. Sorting puts them in that order (`pairwise_sort`), and where no
two of them are alike there is only one order to put them in (`sort_eq_of_perm`).

Paths that are alike may be written differently, but they lead to the same place if they lead
anywhere (`locate_eq_of_compare_eq`).
-/

namespace Station

namespace Path

namespace Component

/-- The place of a sort of component in their order. -/
def rank : Component → Nat
  | .root => 0
  | .current => 1
  | .parent => 2
  | .name _ => 3

/-- The name of an entry; other components have none. -/
def label : Component → String
  | .name text => text
  | .root | .current | .parent => ""

theorem compare_eq (a b : Component) :
    compare a b = compareLex (compareOn rank) (compareOn label) a b := by
  cases a <;> cases b
  case name.name s t =>
    show (compare s t).then .eq = _
    simp [compareLex, compareOn, rank, label, Ordering.then_eq]
  all_goals rfl

instance : Std.TransOrd Component := by
  have hcompare : (compare : Component → Component → Ordering) =
      compareLex (compareOn rank) (compareOn label) := by
    funext a b
    exact compare_eq a b
  exact (hcompare ▸ inferInstance : Std.TransCmp (compare : Component → Component → Ordering))

instance : Std.LawfulEqOrd Component where
  compare_self := Std.ReflCmp.compare_self
  eq_of_compare {a b} h := by
    rw [compare_eq, compareLex, Ordering.then_eq_eq] at h
    obtain ⟨hrank, hlabel⟩ := h
    replace hrank : a.rank = b.rank := Std.LawfulEqOrd.eq_of_compare hrank
    replace hlabel : a.label = b.label := Std.LawfulEqOrd.eq_of_compare hlabel
    cases a <;> cases b <;> simp_all [rank, label]

/-- The piece of text for a component. -/
def piece : Component → String
  | .root => ""
  | .current => "."
  | .parent => ".."
  | .name text => text

end Component

instance : Std.TransOrd Path := inferInstanceAs (Std.TransCmp (compareOn components))

variable {paths files : List Path} {p q : Path}

/-- Paths are alike if they have the same components. -/
theorem compare_eq_eq_iff : compare p q = .eq ↔ p.components = q.components := by
  show compare p.components q.components = .eq ↔ _
  exact Std.compare_eq_iff_eq

theorem compare_ne_eq_symm (h : compare p q ≠ .eq) : compare q p ≠ .eq := by
  rw [Ne, compare_eq_eq_iff, eq_comm, ← compare_eq_eq_iff]
  exact h

theorem component?_ne_root {first : Bool} {piece : String} :
    component? first piece ≠ some .root := by
  unfold component?
  split
  · simp
  · split
    · split <;> simp
    · split <;> simp

/-- Only an absolute path goes through the root. -/
theorem isAbsolute_iff_mem_root : p.isAbsolute = true ↔ .root ∈ p.components := by
  have hnames : ∀ pieces : List String, .root ∉ pieces.filterMap (component? false) := by
    intro pieces hmem
    obtain ⟨piece, -, hpiece⟩ := List.mem_filterMap.1 hmem
    exact component?_ne_root hpiece
  rw [components]
  split
  · simp [*]
  · obtain ⟨piece, rest, hpieces⟩ := List.exists_cons_of_ne_nil p.pieces_ne_nil
    rw [hpieces]
    simp [*, component?_ne_root]

/-! ## Sorting -/

theorem pairwise_sort (paths : List Path) :
    (sort paths).Pairwise fun p q => (compare p q).isLE := by
  refine List.pairwise_mergeSort (fun _ _ _ => Std.TransCmp.isLE_trans) (fun p q => ?_) paths
  cases hcompare : compare p q with
  | lt => rfl
  | eq => rfl
  | gt => simp [Std.OrientedCmp.gt_iff_lt.1 hcompare]

/-- No two paths are alike, and they come in order. -/
def Ascending (files : List Path) : Prop := files.Pairwise fun p q => compare p q = .lt

/-- There is one ascending list of some paths. -/
theorem Ascending.eq_of_mem_iff (h : Ascending files) (hpaths : Ascending paths)
    (hmem : ∀ p, p ∈ files ↔ p ∈ paths) : files = paths := by
  have hantisymm : Std.Antisymm fun p q : Path => compare p q = .lt := by
    refine ⟨fun p q hlt hgt => ?_⟩
    rw [Std.OrientedCmp.gt_iff_lt.2 hlt] at hgt
    cases hgt
  have hirrefl : Std.Irrefl fun p q : Path => compare p q = .lt := by
    refine ⟨fun p hlt => ?_⟩
    rw [compare_eq_eq_iff.2 rfl] at hlt
    cases hlt
  exact List.Pairwise.eq_of_mem_iff h hpaths hmem

theorem Ascending.nodup (h : Ascending files) : files.Nodup := by
  refine h.imp fun {p q} hlt heq => ?_
  rw [heq, compare_eq_eq_iff.2 rfl] at hlt
  cases hlt

/-- One more path comes somewhere between the others. -/
theorem Ascending.exists_insert {extra : Path} (h : Ascending files) (hpaths : Ascending paths)
    (hnew : extra ∉ files) (hmem : ∀ p, p ∈ paths ↔ p ∈ files ∨ p = extra) :
    ∃ before after, files = before ++ after ∧ paths = before ++ extra :: after := by
  obtain ⟨before, after, rfl⟩ := List.append_of_mem ((hmem extra).2 (Or.inr rfl))
  refine ⟨before, after, ?_, rfl⟩
  have hother : Ascending (before ++ after) :=
    hpaths.sublist ((List.sublist_cons_self extra after).append_left before)
  have hrest : extra ∉ before ++ after := by
    have hnodup := hpaths.nodup
    rw [List.nodup_middle] at hnodup
    exact (List.nodup_cons.1 hnodup).1
  -- two ascending lists of the same paths are the same
  refine h.eq_of_mem_iff hother fun p => ?_
  have hp := hmem p
  rw [List.mem_append, List.mem_cons] at hp
  rw [List.mem_append]
  constructor
  · intro hfile
    have hne : p ≠ extra := fun heq => hnew (heq ▸ hfile)
    tauto
  · intro hmemRest
    have hne : p ≠ extra := fun heq => hrest (heq ▸ List.mem_append.2 hmemRest)
    tauto

/-- Sorting puts paths in order, if no two of them are alike. -/
theorem ascending_sort (h : paths.Pairwise fun p q => compare p q ≠ .eq) :
    Ascending (sort paths) := by
  have hapart : (sort paths).Pairwise fun p q => compare p q ≠ .eq :=
    (List.mergeSort_perm paths _).symm.pairwise h fun h => compare_ne_eq_symm h
  refine (pairwise_sort paths).imp₂ (fun p q hle hne => ?_) hapart
  cases hcompare : compare p q with
  | lt => rfl
  | eq => exact absurd hcompare hne
  | gt => simp [hcompare] at hle

/-- In whatever order they come, sorting gives the ascending list of some paths. -/
theorem sort_eq_of_perm (hperm : paths.Perm files) (h : Ascending files) : sort paths = files := by
  have hsorted : (sort paths).Perm files := (List.mergeSort_perm paths _).trans hperm
  have hapart : files.Pairwise fun p q => compare p q ≠ .eq := by
    refine h.imp fun hlt heq => ?_
    rw [hlt] at heq
    cases heq
  refine Ascending.eq_of_mem_iff (ascending_sort ?_) h fun p => hsorted.mem_iff
  exact hperm.symm.pairwise hapart fun h => compare_ne_eq_symm h

end Path

/-! ## Alike paths -/

namespace FileTree

open Station.Path (Component component?)

variable {tree : FileTree} {place next : List String} {p q : Path}

/-- A piece that stands for no component stays where it is, and any other one for its text. -/
theorem step_component? {piece : String} (h : tree.step place piece = .ok next) (first : Bool) :
    ((component? first piece).toList.map Component.piece).foldlM tree.step place = .ok next := by
  have hstay : piece = "" ∨ piece = "." → next = place := fun hpiece =>
    Except.ok.inj (h.symm.trans (step_of_stays (hasDirectory_of_step h) hpiece))
  have hgo : [piece].foldlM tree.step place = .ok next := by
    rw [List.foldlM_cons, h]
    rfl
  unfold component?
  split
  · rw [hstay (Or.inl ‹_›)]
    rfl
  · split
    · rename_i hdot
      -- a dot is a component only where the path begins
      cases first with
      | true =>
        subst hdot
        exact hgo
      | false =>
        rw [hstay (Or.inr hdot)]
        rfl
    · split
      · rename_i hup
        subst hup
        exact hgo
      · exact hgo

/-- Pieces are followed as their components are. -/
theorem foldlM_component? {pieces : List String} (h : pieces.foldlM tree.step place = .ok next) :
    ((pieces.filterMap (component? false)).map Component.piece).foldlM tree.step place =
      .ok next := by
  induction pieces generalizing place with
  | nil => exact h
  | cons piece rest ih =>
    obtain ⟨middle, hstep, hrest⟩ := exists_step_of_foldlM h
    have hfirst := step_component? hstep false
    have hcons : (piece :: rest).filterMap (component? false) =
        (component? false piece).toList ++ rest.filterMap (component? false) := by
      rw [List.filterMap_cons]
      cases component? false piece <;> rfl
    rw [hcons, List.map_append, List.foldlM_append, hfirst]
    exact ih hrest

/-- A path leads where its components do. -/
theorem foldlM_components (h : tree.locate p = .ok place) :
    (p.components.map Component.piece).foldlM tree.step (tree.startOf p) = .ok place := by
  rw [locate_eq (text_ne_of_locate h)] at h
  obtain ⟨piece, rest, hpieces⟩ := List.exists_cons_of_ne_nil p.pieces_ne_nil
  rw [hpieces] at h
  obtain ⟨middle, hstep, hrest⟩ := exists_step_of_foldlM h
  rw [Path.components, hpieces]
  split
  · have hroot := step_of_stays (hasDirectory_of_step hstep) (Or.inl rfl)
    rw [List.map_cons, List.foldlM_cons, Component.piece, hroot]
    exact foldlM_component? h
  · rw [List.map_append, List.foldlM_append, step_component? hstep true]
    exact foldlM_component? hrest

theorem startOf_eq_of_components_eq (h : p.components = q.components) :
    tree.startOf p = tree.startOf q := by
  have habsolute : p.isAbsolute = q.isAbsolute := by
    rw [Bool.eq_iff_iff, Path.isAbsolute_iff_mem_root, h, ← Path.isAbsolute_iff_mem_root]
  rw [startOf, startOf, habsolute]

theorem locate_eq_of_compare_eq {first second : List String} (hp : tree.locate p = .ok first)
    (hq : tree.locate q = .ok second) (h : compare p q = .eq) : first = second := by
  rw [Path.compare_eq_eq_iff] at h
  have hfirst := foldlM_components hp
  rw [h, startOf_eq_of_components_eq h, foldlM_components hq] at hfirst
  exact (Except.ok.inj hfirst).symm

end FileTree

end Station
