import Mathlib.Data.List.Basic
import Mathlib.Tactic.SplitIfs

/-!
# Matching with a result

Backtracking matchers in the order of regular expressions. Each takes a continuation
`k` and the text, and returns what the first way through returns: `many` tries the
longest run of a class of characters first, `few` the shortest, and `anywhere` the
first place of the text.

`Parses m S` says that the matcher `m` decides the relation `S` between texts and
results: what it returns is related to the text, and it returns something whenever a
result is. Each matcher has a rule for it (`Parses.lit`, `Parses.many`, `Parses.few`,
`Parses.nonempty`, `Parses.anywhere`), so that a pattern is specified by composing
the rules in the order in which it is written.
-/

namespace Capture

variable {α : Type*}

/-- The literal text, then `k`. -/
def lit (s : List Char) (k : List Char → Option α) (cs : List Char) : Option α :=
  if s.isPrefixOf cs then k (cs.drop s.length) else none

/-- A run of `p`, the longest that `k` accepts with what follows. -/
def many (p : Char → Bool) (k : List Char → List Char → Option α) : List Char → Option α
  | [] => k [] []
  | c :: cs =>
    if p c then (many p (fun run => k (c :: run)) cs).or (k [] (c :: cs)) else k [] (c :: cs)

/-- A run of `p`, the shortest that `k` accepts with what follows. -/
def few (p : Char → Bool) (k : List Char → List Char → Option α) : List Char → Option α
  | [] => k [] []
  | c :: cs => (k [] (c :: cs)).or (if p c then few p (fun run => k (c :: run)) cs else none)

/-- Only runs that are not empty. -/
def nonempty (k : List Char → List Char → Option α) (run rest : List Char) : Option α :=
  if run.isEmpty then none else k run rest

/-- The first place where `k` accepts what follows. -/
def anywhere (k : List Char → Option α) : List Char → Option α
  | [] => k []
  | c :: cs => (k (c :: cs)).or (anywhere k cs)

variable {p : Char → Bool} {k : List Char → List Char → Option α} {r : α} {cs : List Char}

theorem lit_eq_some_iff {s : List Char} {k : List Char → Option α} :
    lit s k cs = some r ↔ ∃ rest, cs = s ++ rest ∧ k rest = some r := by
  unfold lit
  constructor
  · intro h
    split_ifs at h with hs
    obtain ⟨rest, rfl⟩ := List.isPrefixOf_iff_prefix.1 hs
    rw [List.drop_left] at h
    exact ⟨rest, rfl, h⟩
  · rintro ⟨rest, rfl, h⟩
    rw [if_pos (List.isPrefixOf_iff_prefix.2 (List.prefix_append s rest)), List.drop_left, h]

theorem nonempty_eq_some_iff {run rest : List Char} :
    nonempty k run rest = some r ↔ run ≠ [] ∧ k run rest = some r := by
  cases run <;> simp [nonempty]

/-- A splitting of the text into a run of `p` and the rest. -/
structure Splits (p : Char → Bool) (cs run rest : List Char) : Prop where
  eq : cs = run ++ rest
  all : ∀ c ∈ run, p c = true

theorem Splits.nil (p : Char → Bool) (cs : List Char) : Splits p cs [] cs :=
  ⟨rfl, fun _ h => nomatch h⟩

theorem Splits.cons {c : Char} {run rest : List Char} (hc : p c = true)
    (h : Splits p cs run rest) : Splits p (c :: cs) (c :: run) rest :=
  ⟨congrArg (c :: ·) h.eq, List.forall_mem_cons.2 ⟨hc, h.all⟩⟩

/-- A run is empty, or goes on after a first character of the class. -/
theorem splits_cons_iff {c : Char} {run rest : List Char} :
    Splits p (c :: cs) run rest ↔ run = [] ∧ rest = c :: cs ∨
      p c = true ∧ ∃ run', run = c :: run' ∧ Splits p cs run' rest := by
  constructor
  · rintro ⟨heq, hall⟩
    rcases List.cons_eq_append_iff.1 heq with ⟨rfl, rfl⟩ | ⟨run', rfl, rfl⟩
    · exact Or.inl ⟨rfl, rfl⟩
    · obtain ⟨hc, hall⟩ := List.forall_mem_cons.1 hall
      exact Or.inr ⟨hc, run', rfl, rfl, hall⟩
  · rintro (⟨rfl, rfl⟩ | ⟨hc, run', rfl, h⟩)
    · exact Splits.nil p _
    · exact h.cons hc

theorem splits_nil_iff {run rest : List Char} : Splits p [] run rest ↔ run = [] ∧ rest = [] := by
  constructor
  · rintro ⟨heq, -⟩
    exact List.append_eq_nil_iff.1 heq.symm
  · rintro ⟨rfl, rfl⟩
    exact Splits.nil p []

/-- A greedy run comes from a splitting. -/
theorem many_eq_some (h : many p k cs = some r) :
    ∃ run rest, Splits p cs run rest ∧ k run rest = some r := by
  induction cs generalizing k with
  | nil => exact ⟨[], [], Splits.nil p [], h⟩
  | cons c cs ih =>
    rw [many] at h
    split_ifs at h with hc
    · rcases Option.or_eq_some_iff.1 h with h | ⟨-, h⟩
      · obtain ⟨run, rest, hsplit, hk⟩ := ih h
        exact ⟨c :: run, rest, hsplit.cons hc, hk⟩
      · exact ⟨[], c :: cs, Splits.nil p _, h⟩
    · exact ⟨[], c :: cs, Splits.nil p _, h⟩

theorem few_eq_some (h : few p k cs = some r) :
    ∃ run rest, Splits p cs run rest ∧ k run rest = some r := by
  induction cs generalizing k with
  | nil => exact ⟨[], [], Splits.nil p [], h⟩
  | cons c cs ih =>
    rw [few] at h
    rcases Option.or_eq_some_iff.1 h with h | ⟨-, h⟩
    · exact ⟨[], c :: cs, Splits.nil p _, h⟩
    · split_ifs at h with hc
      obtain ⟨run, rest, hsplit, hk⟩ := ih h
      exact ⟨c :: run, rest, hsplit.cons hc, hk⟩

/-- Every splitting that `k` accepts makes a greedy run. -/
theorem isSome_many_iff : (many p k cs).isSome ↔
    ∃ run rest, Splits p cs run rest ∧ (k run rest).isSome := by
  induction cs generalizing k with
  | nil => simp [many, splits_nil_iff]
  | cons c cs ih =>
    rw [many]
    split_ifs with hc
    · rw [Option.isSome_or, Bool.or_eq_true, ih]
      constructor
      · rintro (⟨run, rest, hsplit, hk⟩ | hk)
        · exact ⟨c :: run, rest, hsplit.cons hc, hk⟩
        · exact ⟨[], c :: cs, Splits.nil p _, hk⟩
      · rintro ⟨run, rest, hsplit, hk⟩
        rcases splits_cons_iff.1 hsplit with ⟨rfl, rfl⟩ | ⟨-, run', rfl, hrun⟩
        · exact Or.inr hk
        · exact Or.inl ⟨run', rest, hrun, hk⟩
    · simp [splits_cons_iff, hc]

theorem isSome_few_iff : (few p k cs).isSome ↔
    ∃ run rest, Splits p cs run rest ∧ (k run rest).isSome := by
  induction cs generalizing k with
  | nil => simp [few, splits_nil_iff]
  | cons c cs ih =>
    rw [few, Option.isSome_or, Bool.or_eq_true]
    split_ifs with hc
    · rw [ih]
      constructor
      · rintro (hk | ⟨run, rest, hsplit, hk⟩)
        · exact ⟨[], c :: cs, Splits.nil p _, hk⟩
        · exact ⟨c :: run, rest, hsplit.cons hc, hk⟩
      · rintro ⟨run, rest, hsplit, hk⟩
        rcases splits_cons_iff.1 hsplit with ⟨rfl, rfl⟩ | ⟨-, run', rfl, hrun⟩
        · exact Or.inl hk
        · exact Or.inr ⟨run', rest, hrun, hk⟩
    · simp [splits_cons_iff, hc]

theorem anywhere_eq_some {k : List Char → Option α} (h : anywhere k cs = some r) :
    ∃ pre post, cs = pre ++ post ∧ k post = some r := by
  induction cs with
  | nil => exact ⟨[], [], rfl, h⟩
  | cons c cs ih =>
    rw [anywhere] at h
    rcases Option.or_eq_some_iff.1 h with h | ⟨-, h⟩
    · exact ⟨[], c :: cs, rfl, h⟩
    · obtain ⟨pre, post, rfl, hk⟩ := ih h
      exact ⟨c :: pre, post, rfl, hk⟩

theorem isSome_anywhere_iff {k : List Char → Option α} : (anywhere k cs).isSome ↔
    ∃ pre post, cs = pre ++ post ∧ (k post).isSome := by
  induction cs with
  | nil => simp [anywhere]
  | cons c cs ih =>
    rw [anywhere, Option.isSome_or, Bool.or_eq_true, ih]
    constructor
    · rintro (hk | ⟨pre, post, rfl, hk⟩)
      · exact ⟨[], c :: cs, rfl, hk⟩
      · exact ⟨c :: pre, post, rfl, hk⟩
    · rintro ⟨pre, post, heq, hk⟩
      rcases List.cons_eq_append_iff.1 heq with ⟨rfl, rfl⟩ | ⟨pre', rfl, rfl⟩
      · exact Or.inl hk
      · exact Or.inr ⟨pre', post, rfl, hk⟩

/-! ## Specifications -/

/-- What `m` returns is related to the text, and it returns something if a result is. -/
structure Parses (m : List Char → Option α) (S : List Char → α → Prop) : Prop where
  sound : ∀ {cs r}, m cs = some r → S cs r
  complete : ∀ {cs r}, S cs r → (m cs).isSome

namespace Parses

variable {m : List Char → Option α} {S S' : List Char → α → Prop}
  {T : List Char → List Char → α → Prop}

theorem isSome_iff (h : Parses m S) : (m cs).isSome ↔ ∃ r, S cs r := by
  constructor
  · intro hsome
    obtain ⟨r, hr⟩ := Option.isSome_iff_exists.1 hsome
    exact ⟨r, h.sound hr⟩
  · rintro ⟨r, hr⟩
    exact h.complete hr

theorem congr (h : Parses m S) (hS : ∀ cs r, S cs r ↔ S' cs r) : Parses m S' :=
  ⟨fun hr => (hS _ _).1 (h.sound hr), fun hr => h.complete ((hS _ _).2 hr)⟩

/-- The end of a pattern. -/
protected theorem some (r : α) : Parses (fun _ => some r) (fun _ r' => r' = r) :=
  ⟨fun h => (Option.some.inj h).symm, fun _ => rfl⟩

protected theorem lit (s : List Char) (h : Parses m S) :
    Parses (lit s m) (fun cs r => ∃ rest, cs = s ++ rest ∧ S rest r) := by
  refine ⟨fun hr => ?_, ?_⟩
  · obtain ⟨rest, heq, hr⟩ := lit_eq_some_iff.1 hr
    exact ⟨rest, heq, h.sound hr⟩
  · rintro cs r ⟨rest, rfl, hr⟩
    obtain ⟨r', hr'⟩ := Option.isSome_iff_exists.1 (h.complete hr)
    exact Option.isSome_of_eq_some (lit_eq_some_iff.2 ⟨rest, rfl, hr'⟩)

protected theorem nonempty {run : List Char} (h : Parses (k run) S) :
    Parses (nonempty k run) (fun cs r => run ≠ [] ∧ S cs r) := by
  refine ⟨fun hr => ?_, ?_⟩
  · obtain ⟨hne, hr⟩ := nonempty_eq_some_iff.1 hr
    exact ⟨hne, h.sound hr⟩
  · rintro cs r ⟨hne, hr⟩
    obtain ⟨r', hr'⟩ := Option.isSome_iff_exists.1 (h.complete hr)
    exact Option.isSome_of_eq_some (nonempty_eq_some_iff.2 ⟨hne, hr'⟩)

protected theorem many (h : ∀ run, Parses (k run) (T run)) :
    Parses (many p k) (fun cs r => ∃ run rest, Splits p cs run rest ∧ T run rest r) := by
  refine ⟨fun hr => ?_, ?_⟩
  · obtain ⟨run, rest, hsplit, hr⟩ := many_eq_some hr
    exact ⟨run, rest, hsplit, (h run).sound hr⟩
  · rintro cs r ⟨run, rest, hsplit, hr⟩
    exact isSome_many_iff.2 ⟨run, rest, hsplit, (h run).complete hr⟩

protected theorem few (h : ∀ run, Parses (k run) (T run)) :
    Parses (few p k) (fun cs r => ∃ run rest, Splits p cs run rest ∧ T run rest r) := by
  refine ⟨fun hr => ?_, ?_⟩
  · obtain ⟨run, rest, hsplit, hr⟩ := few_eq_some hr
    exact ⟨run, rest, hsplit, (h run).sound hr⟩
  · rintro cs r ⟨run, rest, hsplit, hr⟩
    exact isSome_few_iff.2 ⟨run, rest, hsplit, (h run).complete hr⟩

protected theorem anywhere (h : Parses m S) :
    Parses (anywhere m) (fun cs r => ∃ pre post, cs = pre ++ post ∧ S post r) := by
  refine ⟨fun hr => ?_, ?_⟩
  · obtain ⟨pre, post, heq, hr⟩ := anywhere_eq_some hr
    exact ⟨pre, post, heq, h.sound hr⟩
  · rintro cs r ⟨pre, post, heq, hr⟩
    exact isSome_anywhere_iff.2 ⟨pre, post, heq, h.complete hr⟩

end Parses

end Capture
