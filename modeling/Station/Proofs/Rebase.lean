import Mathlib.Data.List.Basic
import Mathlib.Data.List.Induction
import Station.Config
import Station.Proofs.Path

/-!
# Rebasing a configuration

The join of paths keeps their texts, so a base may end with a slash or not, be empty or start at the
root. All that it puts before a relative path is one text (`Path.lead`), and the text that a join
puts there is made of those of its two paths (`Path.lead_join`). So joins associate text for text
(`Path.join_join`), with the empty path as a unit on the left. It is none on the right, where it
leaves a slash behind.

A configuration that is rebased several times is therefore rebased once, on the bases joined into
one path (`ServerConfig.foldl_rebase`).
-/

namespace Station

namespace Path

/-- What the join of a path puts before a relative one: nothing, if the path is empty. -/
def lead (p : Path) : String := if p.text = "" then "" else p.withSlash

variable {p q : Path}

theorem lead_of_text_ne (h : p.text ≠ "") : p.lead = p.withSlash := if_neg h

/-- An absolute path stands for itself. -/
theorem join_of_isAbsolute (base : Path) (h : p.isAbsolute = true) : base.join p = p := if_pos h

/-- Below the empty path every path stands for itself. -/
theorem empty_join (p : Path) : (⟨""⟩ : Path).join p = p := by
  rw [join]
  split
  · rfl
  · simp

theorem text_join_eq_lead (p : Path) (hq : q.isAbsolute = false) :
    (p.join q).text = p.lead ++ q.text := by
  by_cases hp : p.text = ""
  · obtain rfl : p = ⟨""⟩ := congrArg Path.mk hp
    rw [empty_join, lead, if_pos rfl, String.empty_append]
  · rw [text_join hp hq, lead_of_text_ne hp]

/-- A path starts at the root once it is put below one that does. -/
theorem isAbsolute_join_eq (p q : Path) :
    (p.join q).isAbsolute = (p.isAbsolute || q.isAbsolute) := by
  cases hq : q.isAbsolute with
  | true => rw [join_of_isAbsolute p hq, hq, Bool.or_true]
  | false =>
    rw [Bool.or_false]
    by_cases hp : p.text = ""
    · obtain rfl : p = ⟨""⟩ := congrArg Path.mk hp
      rw [empty_join, hq]
      rfl
    · exact isAbsolute_join hp hq

theorem getLast?_lead (h : p.lead ≠ "") : p.lead.toList.getLast? = some '/' := by
  have hp : p.text ≠ "" := by
    intro hp
    exact h (if_pos hp)
  rw [lead_of_text_ne hp]
  exact getLast?_withSlash p

/-- A text that ends with a slash already is put before a path as it is. -/
theorem lead_of_getLast? (h : p.text.toList.getLast? = some '/') : p.lead = p.text := by
  have hp : p.text ≠ "" := by
    intro hp
    rw [hp] at h
    cases h
  rw [lead_of_text_ne hp, withSlash, if_pos h]

/-- What a join puts before a path is what its two paths put there, one after the other. -/
theorem lead_join (p : Path) (hq : q.isAbsolute = false) : (p.join q).lead = p.lead ++ q.lead := by
  have htext := text_join_eq_lead p hq
  by_cases hempty : q.text = ""
  · -- the join is `p` with a slash at its end, unless both are empty
    have hlead : q.lead = "" := if_pos hempty
    rw [hempty, String.append_empty] at htext
    rw [hlead, String.append_empty]
    by_cases hp : p.lead = ""
    · rw [lead, if_pos (htext.trans hp), hp]
    · have hlast : (p.join q).text.toList.getLast? = some '/' := htext ▸ getLast?_lead hp
      rw [lead_of_getLast? hlast, htext]
  · -- the end of the join is that of `q`
    have hne : (p.join q).text ≠ "" := by simp [htext, hempty]
    have hlast : (p.join q).text.toList.getLast? = q.text.toList.getLast? := by
      have hnil : q.text.toList ≠ [] := by simpa using hempty
      rw [htext, String.toList_append, List.getLast?_append, List.getLast?_eq_some_getLast hnil]
      rfl
    rw [lead_of_text_ne hne, lead_of_text_ne hempty, withSlash, withSlash, hlast, htext]
    split
    · rfl
    · rw [String.append_assoc]

/-- Joins associate, text for text. -/
theorem join_join (p q r : Path) : (p.join q).join r = p.join (q.join r) := by
  cases hr : r.isAbsolute with
  | true => rw [join_of_isAbsolute _ hr, join_of_isAbsolute q hr, join_of_isAbsolute p hr]
  | false =>
    cases hq : q.isAbsolute with
    | true =>
      have hjoin : (q.join r).isAbsolute = true := by rw [isAbsolute_join_eq, hq, Bool.true_or]
      rw [join_of_isAbsolute p hq, join_of_isAbsolute p hjoin]
    | false =>
      have hjoin : (q.join r).isAbsolute = false := by rw [isAbsolute_join_eq, hq, hr, Bool.or_self]
      refine congrArg Path.mk ?_
      calc ((p.join q).join r).text
          = p.lead ++ q.lead ++ r.text := by rw [text_join_eq_lead _ hr, lead_join p hq]
        _ = p.lead ++ (q.lead ++ r.text) := String.append_assoc ..
        _ = (p.join (q.join r)).text := by rw [text_join_eq_lead p hjoin, text_join_eq_lead q hr]

/-- Directories that lie in each other, the innermost first, as one path. -/
def nested (dirs : List Path) : Path := dirs.foldl (fun inner outer => outer.join inner) ⟨""⟩

theorem nested_concat (dirs : List Path) (outer : Path) :
    nested (dirs ++ [outer]) = outer.join (nested dirs) := by
  rw [nested, List.foldl_concat, ← nested]

end Path

namespace ServerConfig

theorem rebase_rebase (c : ServerConfig) (inner outer : Path) :
    (c.rebase inner).rebase outer = c.rebase (outer.join inner) := by
  simp only [rebase, Path.join_join]

theorem rebase_empty (c : ServerConfig) : c.rebase ⟨""⟩ = c := by
  simp only [rebase, Path.empty_join]

/-- Bases that are taken one after the other, the innermost first, are one base. -/
theorem foldl_rebase (c : ServerConfig) (bases : List Path) :
    bases.foldl rebase c = c.rebase (Path.nested bases) := by
  induction bases using List.reverseRecOn with
  | nil => exact c.rebase_empty.symm
  | append_singleton bases outer ih =>
    rw [List.foldl_concat, ih, rebase_rebase, Path.nested_concat]

/-- Absolute directories stay as they are under every base. -/
theorem rebase_of_isAbsolute {c : ServerConfig} (base : Path)
    (hprototypes : c.prototypesDir.isAbsolute = true) (hlocale : c.localeDir.isAbsolute = true) :
    c.rebase base = c := by
  rw [rebase, Path.join_of_isAbsolute base hprototypes, Path.join_of_isAbsolute base hlocale]

/-- Below an absolute base both directories are absolute. -/
theorem isAbsolute_rebase (c : ServerConfig) {base : Path} (h : base.isAbsolute = true) :
    (c.rebase base).prototypesDir.isAbsolute = true ∧
      (c.rebase base).localeDir.isAbsolute = true := by
  simp only [rebase, Path.isAbsolute_join_eq, h, Bool.true_or, and_self]

/-- Once both directories are absolute, no more bases make a difference. -/
theorem foldl_rebase_of_isAbsolute {c : ServerConfig} (bases : List Path)
    (hprototypes : c.prototypesDir.isAbsolute = true) (hlocale : c.localeDir.isAbsolute = true) :
    bases.foldl rebase c = c := by
  rw [foldl_rebase, rebase_of_isAbsolute _ hprototypes hlocale]

/-- To rebase a configuration twice, or any number of times, is to rebase it once on the joined
path, text for text. The empty base changes nothing. An absolute directory is never changed, and an
absolute base makes both directories absolute, after which no base changes anything. Each directory
is rebased whatever the other one is, and nothing else is changed. -/
theorem rebase_composes (c : ServerConfig) (inner outer : Path) :
    (c.rebase inner).rebase outer = c.rebase (outer.join inner) ∧
      (∀ bases : List Path, bases.foldl rebase c = c.rebase (Path.nested bases)) ∧
      c.rebase ⟨""⟩ = c ∧
      (c.prototypesDir.isAbsolute = true → (c.rebase inner).prototypesDir = c.prototypesDir) ∧
      (c.localeDir.isAbsolute = true → (c.rebase inner).localeDir = c.localeDir) ∧
      (inner.isAbsolute = true →
        (c.rebase inner).prototypesDir.isAbsolute = true ∧
          (c.rebase inner).localeDir.isAbsolute = true ∧
          ∀ bases : List Path, bases.foldl rebase (c.rebase inner) = c.rebase inner) ∧
      (∀ dir, (rebase { c with localeDir := dir } inner).prototypesDir =
          (c.rebase inner).prototypesDir ∧
        (rebase { c with prototypesDir := dir } inner).localeDir = (c.rebase inner).localeDir) ∧
      (c.rebase inner).joinQueue = c.joinQueue ∧ (c.rebase inner).logFilter = c.logFilter := by
  refine ⟨c.rebase_rebase inner outer, c.foldl_rebase, c.rebase_empty,
    Path.join_of_isAbsolute inner, Path.join_of_isAbsolute inner, fun habsolute => ?_,
    fun dir => ⟨rfl, rfl⟩, rfl, rfl⟩
  obtain ⟨hprototypes, hlocale⟩ := c.isAbsolute_rebase habsolute
  exact ⟨hprototypes, hlocale, fun bases => foldl_rebase_of_isAbsolute bases hprototypes hlocale⟩

theorem rebase_composes_nested :
    let c : ServerConfig := { localeDir := ⟨"/abs/Locale"⟩ }
    (c.rebase ⟨"conf"⟩).rebase ⟨"/srv//"⟩ = c.rebase ⟨"/srv//conf"⟩ ∧
      (c.rebase ⟨""⟩).rebase ⟨"conf"⟩ = c.rebase ⟨"conf/"⟩ ∧
      (c.rebase ⟨"conf"⟩).localeDir = ⟨"/abs/Locale"⟩ ∧
      ((c.rebase ⟨"/srv"⟩).rebase ⟨"conf"⟩).rebase ⟨"/"⟩ = c.rebase ⟨"/srv"⟩ := by
  intro c
  have hslash := (rebase_composes c ⟨"conf"⟩ ⟨"/srv//"⟩).1
  have hempty := (rebase_composes c ⟨""⟩ ⟨"conf"⟩).1
  obtain ⟨-, -, -, -, hlocale, -⟩ := rebase_composes c ⟨"conf"⟩ ⟨""⟩
  obtain ⟨-, -, -, -, -, habsolute, -⟩ := rebase_composes c ⟨"/srv"⟩ ⟨""⟩
  exact ⟨hslash, hempty, hlocale (by decide), (habsolute (by decide)).2.2 [⟨"conf"⟩, ⟨"/"⟩]⟩

end ServerConfig

end Station
