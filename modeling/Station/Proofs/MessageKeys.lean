import Station.Proofs.Report
import Station.Proofs.ReportOrder

/-!
# The keys that locale texts define

The index is filled by a splitter of lines, a scanner of keys and a table. What it holds is said
here without them: `Text.SplitsInto` is a grammar of lines and has exactly one way to read a text
(`Text.linesOf_eq_iff`), and `Locale.Defines` says of a line which key it defines
(`Locale.keyOf?_eq_some_iff`). The places of a key are then those of the lines that define it, text
by text and line by line.
-/

namespace Station

/-! ## Lines -/

namespace Text

/-- The lines of characters. A line ends with a line feed, or with a carriage return and a line
feed. The last one may end with the text, if it is not empty. -/
inductive SplitsInto : List Char → List (List Char) → Prop
  /-- Nothing has no lines. -/
  | nil : SplitsInto [] []
  /-- A last line without an end. -/
  | last {line : List Char} (present : line ≠ []) (whole : '\n' ∉ line) : SplitsInto line [line]
  /-- A line that ends with a line feed. -/
  | feed {line rest : List Char} {lines : List (List Char)} (whole : '\n' ∉ line)
      (bare : line.getLast? ≠ some '\r') (later : SplitsInto rest lines) :
      SplitsInto (line ++ '\n' :: rest) (line :: lines)
  /-- A line that ends with a carriage return and a line feed. -/
  | returnFeed {line rest : List Char} {lines : List (List Char)} (whole : '\n' ∉ line)
      (later : SplitsInto rest lines) : SplitsInto (line ++ '\r' :: '\n' :: rest) (line :: lines)

theorem dropReturn_of_getLast?_ne {line : List Char} (h : line.getLast? ≠ some '\r') :
    dropReturn line = line := if_neg h

theorem dropReturn_concat (line : List Char) : dropReturn (line ++ ['\r']) = line := by
  rw [dropReturn, if_pos List.getLast?_concat, List.dropLast_concat]

theorem linesOf_nil : linesOf [] = [] := by
  rw [linesOf]
  rfl

theorem linesOf_of_notMem {line : List Char} (hpresent : line ≠ []) (hwhole : '\n' ∉ line) :
    linesOf line = [line] := by
  have htake : line.takeWhile (· != '\n') = line := by
    rw [List.takeWhile_eq_self_iff]
    intro c hc
    exact bne_iff_ne.2 fun h => hwhole (h ▸ hc)
  rw [linesOf, if_neg (by simpa using hpresent)]
  simp [htake]

theorem linesOf_feed {line : List Char} (hwhole : '\n' ∉ line) (rest : List Char) :
    linesOf (line ++ '\n' :: rest) = dropReturn line :: linesOf rest := by
  have htake : (line ++ '\n' :: rest).takeWhile (· != '\n') = line := by
    have hbefore : ∀ c ∈ line, (c != '\n') = true := fun c hc =>
      bne_iff_ne.2 fun h => hwhole (h ▸ hc)
    rw [List.takeWhile_append_of_pos hbefore]
    simp
  rw [linesOf, if_neg (by simp)]
  simp [htake]

theorem linesOf_of_splitsInto {text : List Char} {lines : List (List Char)}
    (h : SplitsInto text lines) : linesOf text = lines := by
  induction h with
  | nil => exact linesOf_nil
  | last present whole => exact linesOf_of_notMem present whole
  | feed whole bare later ih => rw [linesOf_feed whole, dropReturn_of_getLast?_ne bare, ih]
  | @returnFeed line rest lines whole later ih =>
    have hwhole : '\n' ∉ line ++ ['\r'] := by simpa using whole
    rw [List.append_cons, linesOf_feed hwhole, dropReturn_concat, ih]

/-- A text is nothing, a line without an end, or a line with a line feed after it. -/
theorem eq_nil_or_line (text : List Char) :
    text = [] ∨ text ≠ [] ∧ '\n' ∉ text ∨
      ∃ line rest, text = line ++ '\n' :: rest ∧ '\n' ∉ line := by
  by_cases hmem : '\n' ∈ text
  · obtain ⟨line, rest, rfl, hwhole⟩ := List.eq_append_cons_of_mem hmem
    exact Or.inr (Or.inr ⟨line, rest, rfl, hwhole⟩)
  · by_cases hnil : text = []
    · exact Or.inl hnil
    · exact Or.inr (Or.inl ⟨hnil, hmem⟩)

theorem splitsInto_linesOf (text : List Char) : SplitsInto text (linesOf text) := by
  induction hlength : text.length using Nat.strong_induction_on generalizing text with
  | h length ih =>
    subst hlength
    rcases eq_nil_or_line text with rfl | ⟨hpresent, hwhole⟩ | ⟨line, rest, rfl, hwhole⟩
    · rw [linesOf_nil]
      exact .nil
    · rw [linesOf_of_notMem hpresent hwhole]
      exact .last hpresent hwhole
    · have hrest := ih rest.length (by simp; omega) rest rfl
      rw [linesOf_feed hwhole]
      by_cases hreturn : line.getLast? = some '\r'
      · obtain ⟨start, rfl⟩ := List.getLast?_eq_some_iff.1 hreturn
        rw [dropReturn_concat, List.append_assoc]
        exact .returnFeed (fun h => hwhole (List.mem_append_left _ h)) hrest
      · rw [dropReturn_of_getLast?_ne hreturn]
        exact .feed hwhole hreturn hrest

/-- There is one way to split a text into lines. -/
theorem linesOf_eq_iff {text : List Char} {lines : List (List Char)} :
    linesOf text = lines ↔ SplitsInto text lines :=
  ⟨fun h => h ▸ splitsInto_linesOf text, linesOf_of_splitsInto⟩

end Text

/-! ## Keys -/

namespace Locale

/-- An ASCII letter, a digit, `_` or `-`. -/
def KeyCharacter (c : Char) : Prop :=
  ('a' ≤ c ∧ c ≤ 'z') ∨ ('A' ≤ c ∧ c ≤ 'Z') ∨ ('0' ≤ c ∧ c ≤ '9') ∨ c = '_' ∨ c = '-'

/-- A text that may be a key. -/
def IsKey (key : String) : Prop := key ≠ "" ∧ ∀ c ∈ key.toList, KeyCharacter c

/-- A line starts with a key, and an equals sign follows with nothing but white space between. -/
def Defines (line : List Char) (key : String) : Prop :=
  IsKey key ∧ ∃ blanks rest, line = key.toList ++ (blanks ++ '=' :: rest) ∧
    ∀ c ∈ blanks, Text.isBlank c = true

theorem isKeyCharacter_iff {c : Char} : isKeyCharacter c = true ↔ KeyCharacter c := by
  simp only [isKeyCharacter, KeyCharacter, Char.isAlphanum, Char.isAlpha, Char.isUpper,
    Char.isLower, Char.isDigit, Bool.or_eq_true, Bool.and_eq_true, decide_eq_true_eq, beq_iff_eq,
    Char.le_def]
  tauto

/-- A key ends at the latest where white space or an equals sign begins. -/
theorem isKeyCharacter_eq_false_of_isBlank {c : Char} (h : Text.isBlank c = true) :
    isKeyCharacter c = false := by
  rw [Bool.eq_false_iff]
  intro hkey
  simp only [isKeyCharacter, Char.isAlphanum, Char.isAlpha, Char.isUpper, Char.isLower,
    Char.isDigit, Bool.or_eq_true, Bool.and_eq_true, decide_eq_true_eq, beq_iff_eq,
    UInt32.le_iff_toNat_le, ge_iff_le] at hkey
  simp only [Text.isBlank, Bool.or_eq_true, Bool.and_eq_true, decide_eq_true_eq, beq_iff_eq] at h
  change ((((65 ≤ c.toNat ∧ c.toNat ≤ 90) ∨ (97 ≤ c.toNat ∧ c.toNat ≤ 122)) ∨
    (48 ≤ c.toNat ∧ c.toNat ≤ 57)) ∨ c = '_') ∨ c = '-' at hkey
  rcases hkey with (hkey | rfl) | rfl
  · omega
  · revert h
    decide
  · revert h
    decide

theorem drop_length_takeWhile {α : Type} (p : α → Bool) (l : List α) :
    l.drop (l.takeWhile p).length = l.dropWhile p := by
  have hsplit : l.takeWhile p ++ l.dropWhile p = l := List.takeWhile_append_dropWhile
  calc l.drop (l.takeWhile p).length
      = (l.takeWhile p ++ l.dropWhile p).drop (l.takeWhile p).length := by rw [hsplit]
    _ = l.dropWhile p := List.drop_left

/-- No character of a key stands where white space or an equals sign begins. -/
theorem takeWhile_blanks {blanks : List Char} (hblanks : ∀ c ∈ blanks, Text.isBlank c = true)
    (rest : List Char) : (blanks ++ '=' :: rest).takeWhile isKeyCharacter = [] := by
  cases blanks with
  | nil => rfl
  | cons blank blanks =>
    have hblank := isKeyCharacter_eq_false_of_isBlank (hblanks blank List.mem_cons_self)
    exact List.takeWhile_cons_of_neg (by simp [hblank])

variable {line : List Char} {key other : String}

/-- What the scanner finds is a key, with white space and an equals sign after it. -/
theorem defines_of_keyOf? (h : keyOf? line = some key) : Defines line key := by
  rw [keyOf?, drop_length_takeWhile] at h
  split at h
  · rename_i rest hrest
    split at h
    · cases h
    · rename_i hpresent
      obtain rfl := Option.some.inj h
      have hkey : IsKey (String.ofList (line.takeWhile isKeyCharacter)) := by
        refine ⟨fun hempty => hpresent ?_, fun c hc => ?_⟩
        · have hchars := congrArg String.toList hempty
          rw [String.toList_ofList] at hchars
          rw [hchars]
          rfl
        · rw [String.toList_ofList] at hc
          exact isKeyCharacter_iff.1 (List.mem_takeWhile_imp hc)
      refine ⟨hkey, (line.dropWhile isKeyCharacter).takeWhile Text.isBlank, rest, ?_, ?_⟩
      · rw [String.toList_ofList, ← hrest, List.takeWhile_append_dropWhile,
          List.takeWhile_append_dropWhile]
      · exact fun c hc => List.mem_takeWhile_imp hc
  · cases h

/-- The scanner stops where the key ends, and so finds the whole of it. -/
theorem keyOf?_of_defines (h : Defines line key) : keyOf? line = some key := by
  obtain ⟨⟨hpresent, hkey⟩, blanks, rest, rfl, hblanks⟩ := h
  have hchars : ∀ c ∈ key.toList, isKeyCharacter c = true := fun c hc =>
    isKeyCharacter_iff.2 (hkey c hc)
  have htake : (key.toList ++ (blanks ++ '=' :: rest)).takeWhile isKeyCharacter = key.toList := by
    rw [List.takeWhile_append_of_pos hchars, takeWhile_blanks hblanks, List.append_nil]
  have hdrop : (key.toList ++ (blanks ++ '=' :: rest)).dropWhile isKeyCharacter =
      blanks ++ '=' :: rest := by
    rw [← drop_length_takeWhile, htake, List.drop_left]
  have hequals : (blanks ++ '=' :: rest).dropWhile Text.isBlank = '=' :: rest := by
    rw [List.dropWhile_append_of_pos hblanks]
    rfl
  have hnonempty : key.toList.isEmpty = false := by simpa using hpresent
  rw [keyOf?, drop_length_takeWhile]
  simp [htake, hdrop, hequals, hnonempty]

/-- The scanner finds the key that a line defines. -/
theorem keyOf?_eq_some_iff : keyOf? line = some key ↔ Defines line key :=
  ⟨defines_of_keyOf?, keyOf?_of_defines⟩

instance (line : List Char) (key : String) : Decidable (Defines line key) :=
  decidable_of_iff (keyOf? line = some key) keyOf?_eq_some_iff

/-- A line defines one key at most. -/
theorem Defines.unique (h : Defines line key) (h' : Defines line other) : key = other :=
  Option.some.inj ((keyOf?_eq_some_iff.2 h).symm.trans (keyOf?_eq_some_iff.2 h'))

/-- A key stands at the very start of its line. -/
theorem Defines.keyCharacter {c : Char} {rest : List Char} (h : Defines (c :: rest) key) :
    KeyCharacter c := by
  obtain ⟨⟨hpresent, hkey⟩, blanks, after, hline, -⟩ := h
  cases hchars : key.toList with
  | nil => exact absurd (String.toList_eq_nil_iff.1 hchars) hpresent
  | cons first later =>
    rw [hchars, List.cons_append] at hline
    rw [(List.cons.inj hline).1]
    exact hkey first (by rw [hchars]; exact List.mem_cons_self)

/-- Each key is defined by some text. -/
theorem exists_defines_iff :
    (∃ text, ∃ line ∈ Text.lines text, Defines line key) ↔ IsKey key := by
  constructor
  · rintro ⟨text, line, -, hkey, -⟩
    exact hkey
  · intro hkey
    have hwhole : '\n' ∉ key.toList ++ ['='] := by
      intro hmem
      rcases List.mem_append.1 hmem with hmem | hmem
      · have hcharacter := isKeyCharacter_iff.2 (hkey.2 _ hmem)
        revert hcharacter
        decide
      · simp at hmem
    refine ⟨String.ofList (key.toList ++ ['=']), key.toList ++ ['='], ?_, hkey, [], [], rfl, nofun⟩
    rw [Text.lines, String.toList_ofList, Text.linesOf_of_notMem (by simp) hwhole]
    exact List.mem_singleton_self _

/-! ## The keys of a text -/

/-- The keys that lines define come from the lines that define them. -/
theorem filter_keysFrom (key : String) (number : Nat) (lines : List (List Char)) :
    (keysFrom number lines).filter (·.1 = key) =
      (lines.zipIdx number).filterMap fun row =>
        if Defines row.1 key then some (key, row.2) else none := by
  induction lines generalizing number with
  | nil => rfl
  | cons line rest ih =>
    rw [keysFrom, List.zipIdx_cons, List.filterMap_cons]
    by_cases hdefines : Defines line key
    · simp [keyOf?_eq_some_iff.2 hdefines, hdefines, ih]
    · rw [if_neg hdefines]
      cases hother : keyOf? line with
      | none => exact ih (number + 1)
      | some other =>
        have hne : other ≠ key := by
          rintro rfl
          exact hdefines (keyOf?_eq_some_iff.1 hother)
        simpa [hne] using ih (number + 1)

theorem exists_mem_keysFrom_iff (number : Nat) {lines : List (List Char)} :
    (∃ definition ∈ keysFrom number lines, definition.1 = key) ↔
      ∃ line ∈ lines, Defines line key := by
  induction lines generalizing number with
  | nil => simp [keysFrom]
  | cons line rest ih =>
    rw [List.exists_mem_cons_iff, ← ih (number + 1), keysFrom, ← keyOf?_eq_some_iff]
    cases keyOf? line <;> simp

end Locale

/-! ## The index of texts -/

namespace LocaleIndex

open Station.Locale (Defines)

/-- The lines of texts that define a key, with the path of the text and the number of the line. -/
def placesOf (key : String) (files : List (String × Path)) : List KeyLocation :=
  files.flatMap fun file => ((Text.lines file.1).zipIdx 1).filterMap fun row =>
    if Defines row.1 key then some ⟨file.2, row.2⟩ else none

/-- The lines of texts that define a key. -/
def linesDefining (key : String) (files : List (String × Path)) : List (List Char) :=
  files.flatMap fun file => (Text.lines file.1).filter fun line => Defines line key

/-- The keys that texts define. -/
def keysDefined (files : List (String × Path)) : Set String :=
  {key | ∃ file ∈ files, ∃ line ∈ Text.lines file.1, Defines line key}

variable {key : String} {files : List (String × Path)}

theorem placesFrom_eq (key : String) (file : String × Path) :
    placesFrom key file = ((Text.lines file.1).zipIdx 1).filterMap fun row =>
      if Defines row.1 key then some ⟨file.2, row.2⟩ else none := by
  rw [placesFrom, Locale.definitions, Locale.filter_keysFrom, List.map_filterMap]
  refine List.filterMap_congr fun row _ => ?_
  split <;> rfl

theorem locations_eq_placesOf (key : String) (files : List (String × Path)) :
    (addTexts {} files).locations key = placesOf key files := by
  rw [locations_addTexts, placesOf]
  exact List.flatMap_congr fun file _ => placesFrom_eq key file

theorem contains_iff_mem_keysDefined :
    (addTexts {} files).contains key = true ↔ key ∈ keysDefined files := by
  rw [contains_addTexts]
  simp only [Locale.definitions, Locale.exists_mem_keysFrom_iff]
  exact or_iff_right (by simp [contains, Table.contains])

/-- A key has as many places as lines that define it. -/
theorem length_placesOf (key : String) (files : List (String × Path)) :
    (placesOf key files).length = (linesDefining key files).length := by
  have hnumbered : ∀ (path : Path) (number : Nat) (lines : List (List Char)),
      ((lines.zipIdx number).filterMap fun row =>
        if Defines row.1 key then some (KeyLocation.mk path row.2) else none).length =
      (lines.filter fun line => Defines line key).length := by
    intro path number lines
    induction lines generalizing number with
    | nil => rfl
    | cons line rest ih => by_cases hdefines : Defines line key <;> simp [hdefines, ih]
  simp only [placesOf, linesDefining, List.length_flatMap, hnumbered]

theorem linesDefining_ne_nil_iff : linesDefining key files ≠ [] ↔ key ∈ keysDefined files := by
  simp [linesDefining, keysDefined]

theorem mem_duplicates_iff {places : List KeyLocation} :
    (key, places) ∈ (addTexts {} files).duplicates ↔
      places = placesOf key files ∧ 2 ≤ (linesDefining key files).length := by
  rw [duplicates, List.mem_filter, decide_eq_true_eq, Table.mem_rows_iff_getD _ key places [],
    ← contains, contains_iff_mem_keysDefined, ← locations, locations_eq_placesOf,
    ← length_placesOf]
  constructor
  · rintro ⟨⟨-, rfl⟩, hlength⟩
    exact ⟨rfl, hlength⟩
  · rintro ⟨rfl, hlength⟩
    refine ⟨⟨?_, rfl⟩, hlength⟩
    rw [← linesDefining_ne_nil_iff, ← List.length_pos_iff, ← length_placesOf]
    omega

/-- Whatever texts are read, one after the other: the index holds for each key the lines that define
it, text by text and line by line, where a line defines the key that stands at its very start before
white space and an equals sign. It counts the keys that some line defines, and lists in order those
that two lines or more define. -/
theorem index_follows_the_grammar (files : List (String × Path)) :
    let index := addTexts {} files
    (∀ text lines, Text.lines text = lines ↔ Text.SplitsInto text.toList lines) ∧
      (∀ key, index.locations key = placesOf key files) ∧
      (∀ line key other, Defines line key → Defines line other → key = other) ∧
      (∀ c rest key, Defines (c :: rest) key → Locale.KeyCharacter c) ∧
      (∀ key, index.contains key = true ↔ key ∈ keysDefined files) ∧
      (∀ key, (∃ text, ∃ line ∈ Text.lines text, Defines line key) ↔ Locale.IsKey key) ∧
      ((keysDefined files).Finite ∧ index.size = (keysDefined files).ncard) ∧
      (index.duplicates.Pairwise fun a b => a.1 < b.1) ∧
      ∀ key places, (key, places) ∈ index.duplicates ↔
        places = placesOf key files ∧ 2 ≤ (linesDefining key files).length := by
  intro index
  have hkeys : {key | index.keys.contains key = true} = keysDefined files :=
    Set.ext fun key => contains_iff_mem_keysDefined
  have hfinite := index.keys.finite_contains
  have hsize := index.keys.size_eq_ncard
  rw [hkeys] at hfinite hsize
  have hascending : index.duplicates.Pairwise fun a b => a.1 < b.1 :=
    (index.keys.ascending.filter _).imp compare_eq_lt_iff.1
  exact ⟨fun text lines => Text.linesOf_eq_iff, fun key => locations_eq_placesOf key files,
    fun line key other => Locale.Defines.unique, fun c rest key => Locale.Defines.keyCharacter,
    fun key => contains_iff_mem_keysDefined, fun key => Locale.exists_defines_iff,
    ⟨hfinite, hsize⟩, hascending, fun key places => mem_duplicates_iff⟩

/-- A carriage return ends a line only before a line feed, Unicode spaces may stand before the
equals sign, and what is indented is no key. -/
example :
    (addTexts {} [("a =\r\n a = b\n\na\u00a0= c", ⟨"en.ftl"⟩), ("a\r=", ⟨"en.ftl"⟩)]).duplicates =
      [("a", [⟨⟨"en.ftl"⟩, 1⟩, ⟨⟨"en.ftl"⟩, 4⟩, ⟨⟨"en.ftl"⟩, 1⟩])] := by
  cbv

end LocaleIndex

end Station
