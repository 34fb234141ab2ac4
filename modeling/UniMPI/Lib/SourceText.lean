import Mathlib.Data.List.Forall2
import UniMPI.Lib.Conditionals
import UniMPI.Lib.LinePattern

/-!
# The lines of a source text

A text is read with universal newlines and cut into `lines`, each with its newline.
`blank` hides the comments of a C text behind white space. It reads the text
character by character with a `Mode`, hides none of the newlines, and so leaves
every line where it was (`lines_blank`).

On the lines with hidden comments, `mark` tells the lines that open a conditional
from those that close one.
-/

namespace SourceText

open Conditionals LinePattern

/-! ## Lines -/

/-- `\r\n` and `\r` end a line as `\n` does. -/
def universal : List Char → List Char
  | [] => []
  | '\r' :: '\n' :: cs => '\n' :: universal cs
  | '\r' :: cs => '\n' :: universal cs
  | c :: cs => c :: universal cs

/-- Cut after each newline. -/
def lines : List Char → List (List Char)
  | [] => []
  | c :: cs =>
    if c = '\n' then [c] :: lines cs
    else
      match lines cs with
      | [] => [[c]]
      | l :: ls => (c :: l) :: ls

/-- A text without `\r` is left as it is. -/
theorem universal_of_not_mem : ∀ {cs : List Char}, '\r' ∉ cs → universal cs = cs
  | [], _ => rfl
  | c :: cs, h => by
    obtain ⟨hc, hcs⟩ := not_or.1 (mt List.mem_cons.2 h)
    rw [universal, universal_of_not_mem hcs]
    · exact fun _ h _ => hc h.symm
    · exact fun h => hc h.symm

/-- A line ends where its newline is. -/
theorem lines_append_newline {body : List Char} (h : '\n' ∉ body) (cs : List Char) :
    lines (body ++ '\n' :: cs) = (body ++ ['\n']) :: lines cs := by
  induction body with
  | nil => rfl
  | cons c body ih =>
    obtain ⟨hc, hbody⟩ := not_or.1 (mt List.mem_cons.2 h)
    rw [List.cons_append, lines, if_neg (Ne.symm hc), ih hbody]
    rfl

/-- Texts without a newline, each followed by one, are the lines again. -/
theorem lines_flatMap_newline {bodies : List (List Char)} (h : ∀ body ∈ bodies, '\n' ∉ body) :
    lines (bodies.flatMap fun body => body ++ ['\n']) = bodies.map fun body => body ++ ['\n'] := by
  induction bodies with
  | nil => rfl
  | cons body bodies ih =>
    obtain ⟨hbody, hbodies⟩ := List.forall_mem_cons.1 h
    rw [List.flatMap_cons, List.append_assoc, List.singleton_append, lines_append_newline hbody,
      ih hbodies, List.map_cons]

/-! ## Searching the lines -/

section
variable (p : List Char → Bool) (ls : List (List Char))

/-- There is a line `l`, and `p` holds of it. -/
def onLine (l : ℕ) : Bool :=
  ls[l]?.any p

/-- The lines `p` holds of, from the top. -/
def lineIndices : List ℕ :=
  (List.range ls.length).filter (onLine p ls)

/-- The nearest line above `l` that `p` holds of. -/
def nearestAbove : ℕ → Option ℕ
  | 0 => none
  | l + 1 => if onLine p ls l then some l else nearestAbove l

/-- The nearest line below `l` that `p` holds of. -/
def nearestBelow (l : ℕ) : Option ℕ :=
  (List.range' (l + 1) (ls.length - (l + 1))).find? (onLine p ls)

end

section
variable {p : List Char → Bool} {ls : List (List Char)} {l i : ℕ}

theorem onLine_eq_true_iff : onLine p ls l = true ↔ ∃ line, ls[l]? = some line ∧ p line = true := by
  rw [onLine, Option.any_eq_true]

theorem lt_length_of_onLine (h : onLine p ls l = true) : l < ls.length := by
  obtain ⟨line, hline, -⟩ := onLine_eq_true_iff.1 h
  exact (List.getElem?_eq_some_iff.1 hline).1

theorem mem_lineIndices_iff : l ∈ lineIndices p ls ↔ onLine p ls l = true := by
  rw [lineIndices, List.mem_filter, List.mem_range]
  exact and_iff_right_of_imp lt_length_of_onLine

theorem head?_lineIndices_eq_some_iff :
    (lineIndices p ls).head? = some i ↔ onLine p ls i = true ∧ ∀ j < i, onLine p ls j = false := by
  rw [lineIndices, List.head?_filter, List.find?_range_eq_some, List.mem_range]
  simp only [Bool.not_eq_true']
  constructor
  · rintro ⟨hi, -, hj⟩
    exact ⟨hi, hj⟩
  · rintro ⟨hi, hj⟩
    exact ⟨hi, lt_length_of_onLine hi, hj⟩

theorem nearestAbove_eq_some_iff : nearestAbove p ls l = some i ↔
    i < l ∧ onLine p ls i = true ∧ ∀ j, i < j → j < l → onLine p ls j = false := by
  induction l with
  | zero => simp [nearestAbove]
  | succ l ih =>
    rw [nearestAbove]
    split
    · rename_i hl
      constructor
      · rintro ⟨⟩
        exact ⟨Nat.lt_succ_self _, hl, fun j hlj hjl => by omega⟩
      · rintro ⟨hil, -, hj⟩
        rcases Nat.lt_succ_iff_lt_or_eq.1 hil with hlt | rfl
        · exact absurd (hj l hlt (Nat.lt_succ_self l)) (by simp [hl])
        · rfl
    · rename_i hl
      rw [ih]
      constructor
      · rintro ⟨hil, hi, hj⟩
        refine ⟨by omega, hi, fun j hij hjl => ?_⟩
        rcases Nat.lt_succ_iff_lt_or_eq.1 hjl with hlt | rfl
        · exact hj j hij hlt
        · exact Bool.eq_false_iff.2 hl
      · rintro ⟨hil, hi, hj⟩
        rcases Nat.lt_succ_iff_lt_or_eq.1 hil with hlt | rfl
        · exact ⟨hlt, hi, fun j hij hjl => hj j hij (by omega)⟩
        · exact absurd hi hl

theorem nearestBelow_eq_some_iff : nearestBelow p ls l = some i ↔
    l < i ∧ onLine p ls i = true ∧ ∀ j, l < j → j < i → onLine p ls j = false := by
  rw [nearestBelow, List.find?_range'_eq_some]
  simp only [List.mem_range'_1, Bool.not_eq_true']
  constructor
  · rintro ⟨hi, ⟨hli, -⟩, hj⟩
    exact ⟨hli, hi, hj⟩
  · rintro ⟨hli, hi, hj⟩
    have := lt_length_of_onLine hi
    exact ⟨hi, ⟨hli, by omega⟩, hj⟩

end

/-! ## Comments -/

/-- Where in a C text a character stands. -/
inductive Mode
  | code
  | line
  | block
  /-- In a string or a character constant that ends with `q`. -/
  | quoted (q : Char)
  /-- After a backslash in one. -/
  | escaped (q : Char)
  /-- At a character of a comment, after which `next` holds. -/
  | skip (next : Mode)

/-- A newline stays, anything else becomes white space. -/
def hide (c : Char) : Char :=
  if c = '\n' then c else ' '

/-- The character shown for `c`, and the mode after it. -/
def Mode.step : Mode → Char → Option Char → Char × Mode
  | code, '/', some '*' => (' ', skip block)
  | code, '/', some '/' => (' ', skip line)
  | code, c, _ => (c, if c = '\x22' ∨ c = '\x27' then quoted c else code)
  -- a backslash before the newline carries the comment on
  | line, '\\', some '\n' => (' ', skip line)
  | line, c, _ => (hide c, if c = '\n' then code else line)
  | block, '*', some '/' => (' ', skip code)
  | block, c, _ => (hide c, block)
  | quoted q, c, _ =>
    (c, if c = '\\' then escaped q else if c = q ∨ c = '\n' then code else quoted q)
  | escaped q, c, _ => (c, quoted q)
  | skip next, c, _ => (hide c, next)

/-- The text with its comments hidden. -/
def blank : Mode → List Char → List Char
  | _, [] => []
  | mode, c :: cs => (mode.step c cs.head?).1 :: blank (mode.step c cs.head?).2 cs

/-- `d` is shown for `c`. -/
def Shows (c d : Char) : Prop :=
  d = c ∨ (d = ' ' ∧ c ≠ '\n')

theorem shows_hide (c : Char) : Shows c (hide c) := by
  unfold hide
  split
  · exact Or.inl rfl
  · exact Or.inr ⟨rfl, ‹_›⟩

theorem Mode.shows_step (mode : Mode) (c : Char) (next : Option Char) :
    Shows c (mode.step c next).1 := by
  unfold Mode.step
  split
  all_goals first
    | exact Or.inl rfl
    | exact shows_hide _

theorem forall₂_shows_blank (mode : Mode) (cs : List Char) :
    List.Forall₂ Shows cs (blank mode cs) := by
  induction cs generalizing mode with
  | nil => exact List.Forall₂.nil
  | cons c cs ih => exact List.Forall₂.cons (mode.shows_step c _) (ih _)

/-- Texts that agree up to hidden characters have the same lines up to hidden characters. -/
theorem forall₂_lines {cs ds : List Char} (h : List.Forall₂ Shows cs ds) :
    List.Forall₂ (List.Forall₂ Shows) (lines cs) (lines ds) := by
  induction h with
  | nil => exact List.Forall₂.nil
  | @cons c d cs ds hcd _ ih =>
    have hnl : c = '\n' ↔ d = '\n' := by
      rcases hcd with rfl | ⟨rfl, hne⟩
      · rfl
      · simp [hne]
    rw [lines, lines]
    by_cases hc : c = '\n'
    · rw [if_pos hc, if_pos (hnl.1 hc)]
      exact List.Forall₂.cons (List.Forall₂.cons hcd List.Forall₂.nil) ih
    · rw [if_neg hc, if_neg (mt hnl.2 hc)]
      generalize lines cs = l at ih
      generalize lines ds = l' at ih
      cases ih with
      | nil => exact List.Forall₂.cons (List.Forall₂.cons hcd List.Forall₂.nil) List.Forall₂.nil
      | cons hl ht => exact List.Forall₂.cons (List.Forall₂.cons hcd hl) ht

/-- The lines with hidden comments are the lines of the text, with some characters hidden. -/
theorem lines_blank (mode : Mode) (cs : List Char) :
    List.Forall₂ (List.Forall₂ Shows) (lines cs) (lines (blank mode cs)) :=
  forall₂_lines (forall₂_shows_blank mode cs)

/-! ## Directives -/

variable (cls : CharClass)

/-- The name of the directive on a line, and what follows it. -/
def directive (line : List Char) : Option (List Char × List Char) :=
  match line.dropWhile cls.isSpace with
  | '#' :: rest =>
    let rest := rest.dropWhile cls.isSpace
    some (rest.takeWhile cls.isWord, rest.dropWhile cls.isWord)
  | _ => none

/-- Line `l` goes on with the line above it, which ends with a backslash. -/
def continued (code : List (List Char)) : ℕ → Bool
  | 0 => false
  | l + 1 => (code[l]?).any fun line => ['\\', '\n'].isSuffixOf line

/-- The directive of line `l`. -/
def directiveAt (code : List (List Char)) (l : ℕ) : Option (List Char × List Char) :=
  if continued code l then none else code[l]?.bind (directive cls)

/-- What line `l` does to the open conditionals. -/
def mark (code : List (List Char)) (l : ℕ) : Mark :=
  match directiveAt cls code l with
  | some (name, _) =>
    if name = "if".toList ∨ name = "ifdef".toList ∨ name = "ifndef".toList then .opening
    else if name = "endif".toList then .closing
    else .plain
  | none => .plain

variable {cls} in
theorem mark_eq_opening_of_if {code : List (List Char)} {l : ℕ} {condition : List Char}
    (h : directiveAt cls code l = some ("if".toList, condition)) : mark cls code l = .opening := by
  rw [mark, h]
  rfl

end SourceText
