import Station.Path

/-!
# Pieces of paths

A path falls apart at its slashes. The join of a path and a relative one has the pieces of both
(`pieces_join`), less the empty piece that a slash at the end of the first one makes (`steps`).
-/

namespace Station.Path

/-! ## Splitting at slashes -/

theorem splitSlash_ne_nil (text : List Char) : splitSlash text ≠ [] := by
  cases text with
  | nil => simp [splitSlash]
  | cons c rest =>
    simp only [splitSlash]
    split
    · simp
    · split <;> simp

/-- A slash separates the pieces before it from those after it. -/
theorem splitSlash_append_slash (before after : List Char) :
    splitSlash (before ++ '/' :: after) = splitSlash before ++ splitSlash after := by
  induction before with
  | nil => simp [splitSlash]
  | cons c rest ih =>
    simp only [List.cons_append, splitSlash, ih]
    split
    · rfl
    · cases hpieces : splitSlash rest with
      | nil => exact absurd hpieces (splitSlash_ne_nil rest)
      | cons piece pieces => rfl

/-- A text without a slash is one piece. -/
theorem splitSlash_of_notMem {text : List Char} (h : '/' ∉ text) : splitSlash text = [text] := by
  induction text with
  | nil => rfl
  | cons c rest ih =>
    rw [List.mem_cons, not_or] at h
    simp only [splitSlash, if_neg (Ne.symm h.1), ih h.2]

/-- The characters of a piece come from the text, and none of them is a slash. -/
theorem mem_of_mem_splitSlash {text piece : List Char} (h : piece ∈ splitSlash text) {c : Char}
    (hc : c ∈ piece) : c ∈ text ∧ c ≠ '/' := by
  induction text generalizing piece with
  | nil =>
    simp only [splitSlash, List.mem_singleton] at h
    simp [h] at hc
  | cons head rest ih =>
    simp only [splitSlash] at h
    split at h
    · rcases List.mem_cons.1 h with rfl | h
      · cases hc
      · exact ⟨List.mem_cons_of_mem _ (ih h hc).1, (ih h hc).2⟩
    · rename_i hhead
      cases hpieces : splitSlash rest with
      | nil => exact absurd hpieces (splitSlash_ne_nil rest)
      | cons first others =>
        rw [hpieces] at h
        rcases List.mem_cons.1 h with rfl | h
        · rcases List.mem_cons.1 hc with rfl | hc
          · exact ⟨List.mem_cons_self, hhead⟩
          · have := ih (hpieces ▸ List.mem_cons_self) hc
            exact ⟨List.mem_cons_of_mem _ this.1, this.2⟩
        · have := ih (hpieces ▸ List.mem_cons_of_mem _ h) hc
          exact ⟨List.mem_cons_of_mem _ this.1, this.2⟩

/-! ## Joins -/

/-- A text that a path can take as one piece. -/
def IsPiece (piece : String) : Prop := '/' ∉ piece.toList

instance (piece : String) : Decidable (IsPiece piece) :=
  inferInstanceAs (Decidable (_ ∉ _))

/-- The pieces of a path, less the empty one that a slash at the end makes. -/
def steps (p : Path) : List String :=
  if p.text.toList.getLast? = some '/' then p.pieces.dropLast else p.pieces

theorem pieces_ne_nil (p : Path) : p.pieces ≠ [] := by
  simp [pieces, splitSlash_ne_nil]

theorem isPiece_of_mem_pieces {p : Path} {piece : String} (h : piece ∈ p.pieces) :
    IsPiece piece := by
  obtain ⟨characters, hmem, rfl⟩ := List.mem_map.1 h
  rw [IsPiece, String.toList_ofList]
  exact fun hslash => (mem_of_mem_splitSlash hmem hslash).2 rfl

/-- A piece is a path of its own. -/
theorem pieces_of_isPiece {piece : String} (h : IsPiece piece) :
    (⟨piece⟩ : Path).pieces = [piece] := by
  rw [pieces, splitSlash_of_notMem h, List.map_singleton, String.ofList_toList]

theorem isAbsolute_of_isPiece {piece : String} (h : IsPiece piece) :
    (⟨piece⟩ : Path).isAbsolute = false := by
  rw [isAbsolute, beq_eq_false_iff_ne]
  exact fun hhead => h (List.mem_of_mem_head? hhead)

/-- The text of a path that ends with a slash, and its pieces. -/
theorem pieces_of_getLast? {p : Path} (h : p.text.toList.getLast? = some '/') :
    ∃ before, p.text.toList = before ++ ['/'] ∧
      p.pieces = (splitSlash before).map String.ofList ++ [""] := by
  obtain ⟨before, hbefore⟩ := List.getLast?_eq_some_iff.1 h
  refine ⟨before, hbefore, ?_⟩
  rw [pieces, hbefore, splitSlash_append_slash, List.map_append]
  rfl

/-- Only an empty piece at the end is no step. -/
theorem pieces_eq_steps (p : Path) : p.pieces = p.steps ∨ p.pieces = p.steps ++ [""] := by
  rw [steps]
  split
  · rename_i hlast
    obtain ⟨before, -, hpieces⟩ := pieces_of_getLast? hlast
    exact Or.inr (by rw [hpieces, List.dropLast_concat])
  · exact Or.inl rfl

theorem steps_ne_nil (p : Path) : p.steps ≠ [] := by
  rw [steps]
  split
  · rename_i hlast
    obtain ⟨before, -, hpieces⟩ := pieces_of_getLast? hlast
    rw [hpieces, List.dropLast_concat]
    simp [splitSlash_ne_nil]
  · exact p.pieces_ne_nil

/-- The first step of an absolute path is the empty one before its first slash. -/
theorem steps_of_isAbsolute {p : Path} (h : p.isAbsolute = true) :
    ∃ rest, p.steps = "" :: rest := by
  rw [isAbsolute, beq_iff_eq] at h
  obtain ⟨rest, htext⟩ := List.head?_eq_some_iff.1 h
  have hpieces : p.pieces = "" :: (splitSlash rest).map String.ofList := by
    rw [pieces, htext, splitSlash, if_pos rfl, List.map_cons, String.ofList_nil]
  rw [steps, hpieces]
  split
  · rw [List.dropLast_cons_of_ne_nil (by simp [splitSlash_ne_nil])]
    exact ⟨_, rfl⟩
  · exact ⟨_, rfl⟩

/-- What the join of a path puts before a relative one: its text, with a slash at the end. -/
def withSlash (p : Path) : String :=
  if p.text.toList.getLast? = some '/' then p.text else p.text ++ "/"

theorem getLast?_withSlash (p : Path) : p.withSlash.toList.getLast? = some '/' := by
  rw [withSlash]
  split
  · assumption
  · simp

theorem text_join {p q : Path} (hp : p.text ≠ "") (hq : q.isAbsolute = false) :
    (p.join q).text = p.withSlash ++ q.text := by
  have hne : p.text.toList ≠ [] := by simpa using hp
  have hlast := List.getLast?_eq_some_getLast hne
  simp only [join, hq, withSlash, hlast, Option.all_some, beq_iff_eq, Option.some.injEq,
    Bool.false_eq_true, if_false]
  split <;> rfl

/-- The steps of a path that is not empty are followed by the pieces of the other one. -/
theorem pieces_join {p q : Path} (hp : p.text ≠ "") (hq : q.isAbsolute = false) :
    (p.join q).pieces = p.steps ++ q.pieces := by
  rw [pieces, text_join hp hq, withSlash, steps]
  split
  · -- the slash is there already, and the empty piece behind it is no step
    rename_i hlast
    obtain ⟨before, htext, hpieces⟩ := pieces_of_getLast? hlast
    rw [hpieces, List.dropLast_concat, String.toList_append, htext, List.append_assoc,
      List.singleton_append, splitSlash_append_slash, List.map_append, pieces]
  · have hslashes : (p.text ++ "/" ++ q.text).toList = p.text.toList ++ '/' :: q.text.toList := by
      simp
    rw [hslashes, splitSlash_append_slash, List.map_append, pieces, pieces]

theorem text_join_ne {p q : Path} (hp : p.text ≠ "") (hq : q.isAbsolute = false) :
    (p.join q).text ≠ "" := by
  rw [text_join hp hq, withSlash]
  split <;> simp [hp]

theorem isAbsolute_join {p q : Path} (hp : p.text ≠ "") (hq : q.isAbsolute = false) :
    (p.join q).isAbsolute = p.isAbsolute := by
  have hne : p.text.toList ≠ [] := by simpa using hp
  obtain ⟨c, rest, htext⟩ := List.exists_cons_of_ne_nil hne
  rw [isAbsolute, text_join hp hq, withSlash, isAbsolute]
  split <;> simp [htext]

/-- A path goes on by one step with a piece that is not empty. -/
theorem steps_join {p : Path} {piece : String} (hp : p.text ≠ "") (hpiece : IsPiece piece)
    (hne : piece ≠ "") : (p.join ⟨piece⟩).steps = p.steps ++ [piece] := by
  have hrelative := isAbsolute_of_isPiece hpiece
  obtain ⟨c, hlast⟩ : ∃ c, piece.toList.getLast? = some c :=
    ⟨_, List.getLast?_eq_some_getLast (by simpa using hne)⟩
  have hslash : c ≠ '/' := by
    rintro rfl
    exact hpiece (List.mem_of_getLast? hlast)
  have hend : (p.join ⟨piece⟩).text.toList.getLast? ≠ some '/' := by
    rw [text_join hp hrelative, String.toList_append, List.getLast?_append, hlast]
    simpa using hslash
  rw [steps, if_neg hend, pieces_join hp hrelative, pieces_of_isPiece hpiece]

end Station.Path
