import Station.Glob.Scan
import Station.Proofs.FileTree

/-!
# Patterns that stand for themselves

A text without `?`, `*` and `[` is a pattern of itself (`parse_of_isLiteral`), also in front of the
chain `**` and of a pattern for an extension (`parse_below`). A run of characters in front of such a
text matches exactly the names that end with it (`matchesAll_anyRun`).

The working directory is special in a scan, because its entries go by their names alone.
`isHere_iff` says which paths stand for it.
-/

namespace Station.Glob

/-! ## Reading literal text -/

/-- A text that holds no wildcard. -/
def IsLiteral (text : List Char) : Prop := ∀ c ∈ text, c ≠ '?' ∧ c ≠ '*' ∧ c ≠ '['

instance (text : List Char) : Decidable (IsLiteral text) := List.decidableBAll _ _

/-- The component that stands for a text itself. -/
def literals (text : String) : List Token := text.toList.map .literal

theorem parseFrom_cons {c : Char} (h : c ≠ '?' ∧ c ≠ '*' ∧ c ≠ '[') (position : Nat)
    (before : Option Char) (rest : List Char) :
    parseFrom position before (c :: rest) =
      (Token.literal c :: ·) <$> parseFrom (position + 1) (some c) rest := by
  obtain ⟨hquestion, hstar, hbracket⟩ := h
  rw [parseFrom.eq_def]
  split <;> simp_all

/-- A text without wildcards stands for itself in front of whatever may follow its last character.
-/
theorem parseFrom_append {text rest : List Char} {before : Option Char} {tokens : List Token}
    (h : IsLiteral text)
    (hrest : ∀ position, parseFrom position (text.getLast?.or before) rest = .ok tokens)
    (position : Nat) :
    parseFrom position before (text ++ rest) = .ok (text.map .literal ++ tokens) := by
  induction text generalizing position before with
  | nil => exact hrest position
  | cons c text ih =>
    -- the stars behind the text look at the character in front of them, which is still the same
    have hlast : (c :: text).getLast?.or before = text.getLast?.or (some c) := by
      rw [List.getLast?_cons]
      cases text.getLast? <;> rfl
    have hlater := ih (fun d hd => h d (List.mem_cons_of_mem _ hd)) (hlast ▸ hrest) (position + 1)
    rw [List.cons_append, parseFrom_cons (h c List.mem_cons_self), hlater]
    rfl

theorem parseFrom_of_isLiteral {text : List Char} (h : IsLiteral text) (position : Nat)
    (before : Option Char) : parseFrom position before text = .ok (text.map .literal) := by
  have hparse : parseFrom position before (text ++ []) = .ok (text.map .literal ++ []) :=
    parseFrom_append h (fun _ => by simp [parseFrom]) position
  rwa [List.append_nil, List.append_nil] at hparse

theorem parse_of_isLiteral {text : String} (h : IsLiteral text.toList) :
    parse text = .ok (literals text) :=
  parseFrom_of_isLiteral h 0 none

theorem parse_chain : parse "**" = .ok [.anyChain] := by
  simp [parse, parseFrom]

/-- The pattern of the names that end with an extension. -/
theorem parse_extension {extension : String} (h : IsLiteral extension.toList) :
    parse ("*." ++ extension) = .ok (.anyRun :: literals ("." ++ extension)) := by
  have htext : ("*." ++ extension).toList = '*' :: '.' :: extension.toList := by simp
  simp [parse, htext, parseFrom, parseFrom_of_isLiteral h, literals]

/-- A bracket that closes is one element of a pattern. -/
theorem parseFrom_bracket {rest after : List Char} {token : Token}
    (h : bracket rest = some (token, after)) (position : Nat) (before : Option Char) :
    parseFrom position before ('[' :: rest) = (token :: ·) <$>
      parseFrom (position + 1 + (rest.length - after.length)) (some ']') after := by
  rw [parseFrom]
  split
  · rename_i hnone
    rw [h] at hnone
    cases hnone
  · rename_i hsome
    obtain ⟨rfl, rfl⟩ := Prod.mk.inj (Option.some.inj (h.symm.trans hsome))
    rfl

/-- A directory without wildcards, the chain and an extension are one pattern. -/
theorem parse_below {directory extension : String} (hliteral : IsLiteral directory.toList)
    (hslash : directory.toList.getLast? = some '/') (h : IsLiteral extension.toList) :
    ∃ tokens, parse (directory ++ "**/*." ++ extension) = .ok tokens := by
  have htext : (directory ++ "**/*." ++ extension).toList =
      directory.toList ++ ('*' :: '*' :: '/' :: '*' :: '.' :: extension.toList) := by simp
  have hbelow : ∀ position,
      parseFrom position (directory.toList.getLast?.or none)
          ('*' :: '*' :: '/' :: '*' :: '.' :: extension.toList) =
        .ok (.anyChain :: .anyRun :: literals ("." ++ extension)) := by
    intro position
    simp [hslash, parseFrom, parseFrom_of_isLiteral h, literals]
  rw [parse, htext]
  exact ⟨_, parseFrom_append hliteral hbelow 0⟩

/-! ## Names that end with an extension -/

theorem matchesAll_literals (text name : List Char) :
    matchesAll (text.map .literal) name = true ↔ name = text := by
  induction text generalizing name with
  | nil => cases name <;> simp [matchesAll]
  | cons c text ih =>
    cases name with
    | nil => simp [matchesAll]
    | cons d name =>
      simp only [List.map_cons, matchesAll, Bool.and_eq_true, beq_iff_eq, ih, List.cons.injEq,
        eq_comm (a := c)]

/-- A run of characters before a text is any beginning at all. -/
theorem matchesAll_anyRun (text name : List Char) :
    matchesAll (.anyRun :: text.map .literal) name = true ↔ text <:+ name := by
  rw [matchesAll]
  induction name with
  | nil => rw [matchesAll.run, matchesAll_literals, List.suffix_nil, eq_comm]
  | cons c name ih =>
    rw [matchesAll.run, Bool.or_eq_true, ih, matchesAll_literals, List.suffix_cons_iff, eq_comm]

/-! ## The working directory -/

open Station.Path (IsPiece)

theorem component?_eq_none_iff {piece : String} :
    Path.component? false piece = none ↔ piece = "" ∨ piece = "." := by
  unfold Path.component?
  split
  · simp [*]
  · split
    · simp [*]
    · split <;> simp [*]

theorem component?_ne_current (piece : String) :
    Path.component? false piece ≠ some .current := by
  unfold Path.component?
  split
  · simp
  · split
    · simp
    · split <;> simp

theorem component?_eq_current_iff {piece : String} :
    Path.component? true piece = some .current ↔ piece = "." := by
  unfold Path.component?
  split
  · simp [*]
  · split
    · simp [*]
    · split <;> simp [*]

/-- The working directory is written as a dot, and dots and slashes behind it. -/
theorem isHere_iff {p : Path} :
    isHere p = true ↔ p.isAbsolute = false ∧
      ∃ rest, p.pieces = "." :: rest ∧ ∀ piece ∈ rest, piece = "" ∨ piece = "." := by
  obtain ⟨first, rest, hpieces⟩ := List.exists_cons_of_ne_nil p.pieces_ne_nil
  rw [isHere, beq_iff_eq, Path.components]
  cases habsolute : p.isAbsolute with
  | true => simp
  | false =>
    simp only [Bool.false_eq_true, if_false, hpieces, List.cons.injEq, true_and]
    constructor
    · intro hcomponents
      cases hfirst : Path.component? true first with
      | none =>
        rw [hfirst, Option.toList_none, List.nil_append] at hcomponents
        have hmem : Path.Component.current ∈ rest.filterMap (Path.component? false) := by
          simp [hcomponents]
        obtain ⟨piece, -, hpiece⟩ := List.mem_filterMap.1 hmem
        exact absurd hpiece (component?_ne_current piece)
      | some component =>
        rw [hfirst, Option.toList_some, List.singleton_append, List.cons.injEq,
          List.filterMap_eq_nil_iff] at hcomponents
        rw [hcomponents.1] at hfirst
        exact ⟨rest, ⟨component?_eq_current_iff.1 hfirst, rfl⟩,
          fun piece hpiece => component?_eq_none_iff.1 (hcomponents.2 piece hpiece)⟩
    · rintro ⟨others, ⟨rfl, rfl⟩, hstays⟩
      rw [component?_eq_current_iff.2 rfl, List.filterMap_eq_nil_iff.2 fun piece hpiece =>
        component?_eq_none_iff.2 (hstays piece hpiece)]
      rfl

/-- Nothing but the working directory has a piece below it that is the working directory. -/
theorem isHere_of_join {p : Path} {piece : String} (hp : p.text ≠ "") (hpiece : IsPiece piece)
    (h : isHere (p.join ⟨piece⟩) = true) : isHere p = true := by
  have hrelative := Path.isAbsolute_of_isPiece hpiece
  obtain ⟨habsolute, rest, hpieces, hstays⟩ := isHere_iff.1 h
  rw [Path.isAbsolute_join hp hrelative] at habsolute
  rw [Path.pieces_join hp hrelative, Path.pieces_of_isPiece hpiece] at hpieces
  refine isHere_iff.2 ⟨habsolute, ?_⟩
  cases hsteps : p.steps with
  | nil => exact absurd hsteps p.steps_ne_nil
  | cons first others =>
    rw [hsteps, List.cons_append, List.cons.injEq] at hpieces
    obtain ⟨rfl, rfl⟩ := hpieces
    rcases p.pieces_eq_steps with heq | heq
    · rw [heq, hsteps]
      exact ⟨others, rfl, fun other hother => hstays other (by simp [hother])⟩
    · rw [heq, hsteps]
      refine ⟨others ++ [""], rfl, fun other hother => ?_⟩
      rcases List.mem_append.1 hother with hother | hother
      · exact hstays other (by simp [hother])
      · exact Or.inl (List.mem_singleton.1 hother)

end Station.Glob
