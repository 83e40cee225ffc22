/-!
# File name patterns

In a pattern `?` stands for any character, `*` for any run of characters, `[ab-c]` for one of the
listed characters and `[!ab-c]` for any other one. A component `**` stands for any chain of
directories. Everything else stands for itself, and case counts.
-/

namespace Station.Glob

/-- What a bracket lists: single characters and ranges. -/
inductive Listed where
  /-- One character. -/
  | single (c : Char)
  /-- The characters between two; none if the ends are reversed. -/
  | range (low high : Char)
  deriving DecidableEq, Repr

/-- Whether a listed item covers a character. -/
def Listed.covers : Listed → Char → Bool
  | .single c, probe => c == probe
  | .range low high, probe => decide (low ≤ probe) && decide (probe ≤ high)

/-- One element of a pattern. -/
inductive Token where
  /-- The character itself. -/
  | literal (c : Char)
  /-- Any one character. -/
  | anyCharacter
  /-- Any run of characters. -/
  | anyRun
  /-- Any chain of directories. -/
  | anyChain
  /-- One of the listed characters. -/
  | oneOf (listed : List Listed)
  /-- Any character that is not listed. -/
  | noneOf (listed : List Listed)
  deriving DecidableEq, Repr

/-- Why a text is no pattern. -/
inductive Problem where
  /-- Three or more stars in a row. -/
  | starRun
  /-- Two stars that are not a whole component. -/
  | partialChain
  /-- A bracket that does not close. -/
  | openBracket
  deriving DecidableEq, Repr, Inhabited

/-- A problem and the character of the pattern at which it shows. -/
structure PatternError where
  /-- The number of characters before that place. -/
  position : Nat
  /-- What is wrong there. -/
  problem : Problem
  deriving DecidableEq, Repr, Inhabited

/-- The text of a problem. -/
def Problem.message : Problem → String
  | .starRun => "wildcards are either regular `*` or recursive `**`"
  | .partialChain => "recursive wildcards must form a single path component"
  | .openBracket => "invalid range pattern"

/-- The text of a pattern error. -/
def PatternError.message (e : PatternError) : String :=
  "Pattern syntax error near position " ++ toString e.position ++ ": " ++ e.problem.message

/-- Reads the inside of a bracket: a range wherever a dash stands between two characters. -/
def listedOf : List Char → List Listed
  | low :: '-' :: high :: rest => .range low high :: listedOf rest
  | c :: rest => .single c :: listedOf rest
  | [] => []

/-- The inside of a bracket, which holds at least one character, and what follows it. -/
def splitBracket : List Char → Option (List Char × List Char)
  | [] => none
  | first :: rest =>
    let inside := rest.takeWhile (· != ']')
    match rest.drop inside.length with
    | [] => none
    | _ :: after => some (first :: inside, after)

theorem length_after_splitBracket {text inside after : List Char}
    (h : splitBracket text = some (inside, after)) : after.length < text.length := by
  cases text with
  | nil => simp [splitBracket] at h
  | cons first rest =>
    simp only [splitBracket] at h
    split at h
    · simp at h
    · rename_i heq
      have hlength := congrArg List.length heq
      simp only [List.length_drop, List.length_cons] at hlength
      simp only [Option.some.injEq, Prod.mk.injEq] at h
      rw [← h.2, List.length_cons]
      omega

/-- Reads a bracket after its opening character. -/
def bracket (text : List Char) : Option (Token × List Char) :=
  match text with
  | '!' :: rest => (splitBracket rest).map fun (inside, after) => (.noneOf (listedOf inside), after)
  | _ => (splitBracket text).map fun (inside, after) => (.oneOf (listedOf inside), after)

theorem length_after_bracket {text after : List Char} {token : Token}
    (h : bracket text = some (token, after)) : after.length < text.length + 1 := by
  unfold bracket at h
  split at h <;> simp only [Option.map_eq_some_iff, Prod.mk.injEq, Prod.exists] at h <;>
    obtain ⟨inside, rest, hsplit, -, rfl⟩ := h <;>
    have := length_after_splitBracket hsplit
  · simp only [List.length_cons]
    omega
  · omega

/-- Reads a pattern from a position on; `before` is the character in front of it. -/
def parseFrom (position : Nat) (before : Option Char) (text : List Char) :
    Except PatternError (List Token) :=
  match text with
  | [] => .ok []
  | '?' :: rest => do return .anyCharacter :: (← parseFrom (position + 1) (some '?') rest)
  | '*' :: '*' :: '*' :: _ => .error ⟨position + 2, .starRun⟩
  | '*' :: '*' :: rest =>
    if before.all (· == '/') then
      match rest with
      | [] => .ok [.anyChain]
      | '/' :: rest => do return .anyChain :: (← parseFrom (position + 3) (some '/') rest)
      | _ => .error ⟨position + 2, .partialChain⟩
    else .error ⟨position - 1, .partialChain⟩
  | '*' :: rest => do return .anyRun :: (← parseFrom (position + 1) (some '*') rest)
  | '[' :: rest =>
    match hrest : bracket rest with
    | none => .error ⟨position, .openBracket⟩
    | some (token, after) => do
      return token :: (← parseFrom (position + 1 + (rest.length - after.length)) (some ']') after)
  | c :: rest => do return .literal c :: (← parseFrom (position + 1) (some c) rest)
  termination_by text.length
  decreasing_by
    all_goals simp_wf
    all_goals try omega
    have hshorter := length_after_bracket hrest
    omega

/-- Reads a pattern. -/
def parse (text : String) : Except PatternError (List Token) := parseFrom 0 none text.toList

/-- Whether the elements of a pattern match all of a name. -/
def matchesAll : List Token → List Char → Bool
  | [], name => name.isEmpty
  | .anyRun :: tokens, name => run tokens name
  | .anyChain :: tokens, name => run tokens name
  | .literal c :: tokens, probe :: rest => c == probe && matchesAll tokens rest
  | .anyCharacter :: tokens, _ :: rest => matchesAll tokens rest
  | .oneOf listed :: tokens, probe :: rest => listed.any (·.covers probe) && matchesAll tokens rest
  | .noneOf listed :: tokens, probe :: rest =>
    !listed.any (·.covers probe) && matchesAll tokens rest
  | _ :: _, [] => false
where
  /-- Whether the elements match what is left of a name after some run of characters. -/
  run (tokens : List Token) : List Char → Bool
    | [] => matchesAll tokens []
    | probe :: rest => matchesAll tokens (probe :: rest) || run tokens rest

end Station.Glob
