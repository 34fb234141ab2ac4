import Mathlib.Data.List.Basic
import Mathlib.Data.Nat.Notation

/-!
# Patterns in a line

The part of regular expressions that a line-based tool needs: literal text, runs of
white space and word boundaries, one after the other. `matchesAt` matches from a
position, which is the character before it and the text after it, and `search`
from any position of the line. Which characters are white space or belong to words is
left open beyond the plain ones (`CharClass`).

A literal of word characters between two boundaries is found exactly if it occurs
with no word character on either side (`search_word_iff`).
-/

namespace LinePattern

/-- The plain word characters. -/
def asciiWord (c : Char) : Bool :=
  c.isAlphanum || c == '_'

/-- What counts as white space and what as part of a word: the plain word characters do, others
may. -/
structure CharClass where
  isSpace : Char → Bool
  isWord : Char → Bool
  isWord_of_ascii : ∀ c, asciiWord c = true → isWord c = true

/-- The plain characters alone. -/
def CharClass.ascii : CharClass :=
  ⟨Char.isWhitespace, asciiWord, fun _ h => h⟩

/-- One element of a pattern. -/
inductive Atom
  | lit (s : List Char)
  /-- At least so many characters of white space. -/
  | spaces (least : ℕ)
  /-- A place between a word character and another one or an end of the line. -/
  | boundary

variable (cls : CharClass)

/-- Whether a character, if there is one, belongs to a word. -/
def CharClass.inWord (c : Option Char) : Bool :=
  c.any cls.isWord

/-- The character before the place behind `s`. -/
def before (prev : Option Char) (s : List Char) : Option Char :=
  s.getLast?.or prev

/-- At least so many characters of white space, then `next`. -/
def skipSpaces (next : Option Char → List Char → Bool) :
    ℕ → Option Char → List Char → Bool
  | 0, prev, [] => next prev []
  | 0, prev, c :: cs => next prev (c :: cs) || (cls.isSpace c && skipSpaces next 0 (some c) cs)
  | _ + 1, _, [] => false
  | n + 1, _, c :: cs => cls.isSpace c && skipSpaces next n (some c) cs

/-- The pattern matches a beginning of the text, after the character `prev`. -/
def matchesAt : List Atom → Option Char → List Char → Bool
  | [], _, _ => true
  | .lit s :: atoms, prev, cs =>
    s.isPrefixOf cs && matchesAt atoms (before prev s) (cs.drop s.length)
  | .spaces least :: atoms, prev, cs => skipSpaces cls (matchesAt atoms) least prev cs
  | .boundary :: atoms, prev, cs =>
    (cls.inWord prev != cls.inWord cs.head?) && matchesAt atoms prev cs

/-- The pattern matches from some place on. -/
def searchFrom (atoms : List Atom) : Option Char → List Char → Bool
  | prev, [] => matchesAt cls atoms prev []
  | prev, c :: cs => matchesAt cls atoms prev (c :: cs) || searchFrom atoms (some c) cs

def search (atoms : List Atom) (line : List Char) : Bool :=
  searchFrom cls atoms none line

variable {cls}

theorem before_nil (prev : Option Char) : before prev [] = prev :=
  rfl

theorem before_cons (prev : Option Char) (c : Char) (s : List Char) :
    before prev (c :: s) = before (some c) s := by
  cases s with
  | nil => rfl
  | cons d s => simp [before, List.getLast?_cons]

theorem searchFrom_iff (atoms : List Atom) :
    ∀ (cs : List Char) (prev : Option Char), searchFrom cls atoms prev cs = true ↔
      ∃ pre post, cs = pre ++ post ∧ matchesAt cls atoms (before prev pre) post = true
  | [], prev => by
    simp [searchFrom, before_nil]
  | c :: cs, prev => by
    rw [searchFrom, Bool.or_eq_true, searchFrom_iff atoms cs]
    constructor
    · rintro (h | ⟨pre, post, rfl, h⟩)
      · exact ⟨[], c :: cs, rfl, h⟩
      · exact ⟨c :: pre, post, rfl, by rwa [before_cons]⟩
    · rintro ⟨pre, post, heq, h⟩
      rcases List.cons_eq_append_iff.1 heq with ⟨rfl, rfl⟩ | ⟨pre', rfl, rfl⟩
      · exact Or.inl h
      · rw [before_cons] at h
        exact Or.inr ⟨pre', post, rfl, h⟩

/-- `word` occurs in the line with no word character on either side. -/
def WholeWord (cls : CharClass) (word line : List Char) : Prop :=
  ∃ pre post, line = pre ++ word ++ post ∧ cls.inWord pre.getLast? = false ∧
    cls.inWord post.head? = false

theorem inWord_getLast? {word : List Char} (hne : word ≠ [])
    (hword : ∀ c ∈ word, cls.isWord c = true) (prev : Option Char) :
    cls.inWord (before prev word) = true := by
  rw [before, List.getLast?_eq_some_getLast hne]
  exact hword _ (List.getLast_mem hne)

theorem inWord_head? {word : List Char} (hne : word ≠ [])
    (hword : ∀ c ∈ word, cls.isWord c = true) (post : List Char) :
    cls.inWord (word ++ post).head? = true := by
  obtain ⟨c, cs, rfl⟩ := List.exists_cons_of_ne_nil hne
  exact hword c List.mem_cons_self

/-- Searching for a word between boundaries finds its whole occurrences. -/
theorem search_word_iff {word : List Char} (hne : word ≠ [])
    (hword : ∀ c ∈ word, cls.isWord c = true) (line : List Char) :
    search cls [.boundary, .lit word, .boundary] line = true ↔ WholeWord cls word line := by
  rw [search, searchFrom_iff]
  constructor
  · rintro ⟨pre, post, rfl, h⟩
    simp only [matchesAt, Bool.and_eq_true, List.isPrefixOf_iff_prefix, bne_iff_ne, ne_eq] at h
    obtain ⟨hpre, ⟨post, rfl⟩, hpost, -⟩ := h
    rw [inWord_head? hne hword] at hpre
    rw [inWord_getLast? hne hword, List.drop_left] at hpost
    refine ⟨pre, post, (List.append_assoc pre word post).symm, ?_, ?_⟩
    · simpa [before] using hpre
    · simpa using Ne.symm hpost
  · rintro ⟨pre, post, rfl, hpre, hpost⟩
    refine ⟨pre, word ++ post, List.append_assoc pre word post, ?_⟩
    have hprefix : word.isPrefixOf (word ++ post) = true :=
      List.isPrefixOf_iff_prefix.2 (List.prefix_append word post)
    have hbefore : before none pre = pre.getLast? := Option.or_none
    simp only [matchesAt, inWord_head? hne hword, inWord_getLast? hne hword, List.drop_left,
      hbefore, hpre, hpost, hprefix]
    rfl

end LinePattern
