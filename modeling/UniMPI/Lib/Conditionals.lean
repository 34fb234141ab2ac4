import Mathlib.Data.List.Basic
import Mathlib.Data.Nat.Notation
import Mathlib.Tactic.Linarith

/-!
# Nested conditionals

Lines open a conditional, close the innermost open one, or do neither.
`openBefore mark l` are the lines whose conditional is open when line `l` is
reached, innermost first. An opening line is among them exactly if it is above `l`
and the closing lines never outnumber the opening ones on a stretch that begins
after it (`mem_openBefore_iff`), which does not need the rest of the text, nor that
it is well nested.
-/

namespace Conditionals

/-- What a line does. -/
inductive Mark
  | opening
  | closing
  | plain
deriving DecidableEq

/-- The open lines above line `l`, innermost first. A closing line without an open one does
nothing. -/
def openBefore (mark : ℕ → Mark) : ℕ → List ℕ
  | 0 => []
  | l + 1 =>
    match mark l with
    | .opening => l :: openBefore mark l
    | .closing => (openBefore mark l).tail
    | .plain => openBefore mark l

/-- The first `n` lines are properly nested: every closing line has an open one, and none is left
open. -/
def WellNested (mark : ℕ → Mark) (n : ℕ) : Prop :=
  (∀ l < n, mark l = .closing → openBefore mark l ≠ []) ∧ openBefore mark n = []

instance (mark : ℕ → Mark) (n : ℕ) : Decidable (WellNested mark n) :=
  inferInstanceAs (Decidable (_ ∧ _))

/-- What a line adds to the depth. -/
def Mark.weight : Mark → Int
  | opening => 1
  | closing => -1
  | plain => 0

/-- Opening minus closing lines among the `k` lines after `g`. -/
def excess (mark : ℕ → Mark) (g : ℕ) : ℕ → Int
  | 0 => 0
  | k + 1 => excess mark g k + (mark (g + 1 + k)).weight

/-- Between `g` and `l`, on no stretch that begins after `g` are there more closing than opening
lines. -/
def Unclosed (mark : ℕ → Mark) (g l : ℕ) : Prop :=
  ∀ k, g + 1 + k ≤ l → 0 ≤ excess mark g k

variable {mark : ℕ → Mark} {g l : ℕ}

theorem Unclosed.mono {l' : ℕ} (h : Unclosed mark g l) (hl : l' ≤ l) : Unclosed mark g l' :=
  fun k hk => h k (hk.trans hl)

/-- Without a closing line after it, a line is unclosed. -/
theorem unclosed_of_forall_ne_closing (h : ∀ i, g < i → i < l → mark i ≠ .closing) :
    Unclosed mark g l := by
  intro k
  induction k with
  | zero => exact fun _ => le_rfl
  | succ k ih =>
    intro hk
    have hweight : 0 ≤ (mark (g + 1 + k)).weight := by
      have := h (g + 1 + k) (by omega) (by omega)
      revert this
      cases mark (g + 1 + k) <;> simp [Mark.weight]
    exact Int.add_nonneg (ih (by omega)) hweight

/-- Lines that add no less to the depth keep a line unclosed. -/
theorem Unclosed.of_weight_le {mark' : ℕ → Mark} (h : Unclosed mark' g l)
    (hle : ∀ i, g < i → i < l → (mark' i).weight ≤ (mark i).weight) : Unclosed mark g l := by
  have hexcess : ∀ k, g + 1 + k ≤ l → excess mark' g k ≤ excess mark g k := by
    intro k
    induction k with
    | zero => exact fun _ => le_rfl
    | succ k ih =>
      intro hk
      exact Int.add_le_add (ih (by omega)) (hle _ (by omega) (by omega))
  exact fun k hk => (h k hk).trans (hexcess k hk)

theorem lt_of_mem_openBefore : ∀ {l : ℕ}, g ∈ openBefore mark l → g < l
  | 0, h => by simp [openBefore] at h
  | l + 1, h => by
    simp only [openBefore] at h
    split at h
    · rcases List.mem_cons.1 h with rfl | h
      · exact Nat.lt_succ_self g
      · exact Nat.lt_succ_of_lt (lt_of_mem_openBefore h)
    · exact Nat.lt_succ_of_lt (lt_of_mem_openBefore (List.mem_of_mem_tail h))
    · exact Nat.lt_succ_of_lt (lt_of_mem_openBefore h)

/-- While `g` is not closed, it stays where it was, under as many open lines as there are more
opening than closing ones after it. -/
theorem openBefore_of_unclosed (hg : mark g = .opening) :
    ∀ k, Unclosed mark g (g + 1 + k) →
      ∃ inner, openBefore mark (g + 1 + k) = inner ++ g :: openBefore mark g ∧
        (inner.length : Int) = excess mark g k
  | 0, _ => ⟨[], by simp [openBefore, hg], rfl⟩
  | k + 1, h => by
    obtain ⟨inner, hopen, hlen⟩ := openBefore_of_unclosed hg k (h.mono (by omega))
    have hnext : openBefore mark (g + 1 + (k + 1)) = match mark (g + 1 + k) with
        | .opening => (g + 1 + k) :: openBefore mark (g + 1 + k)
        | .closing => (openBefore mark (g + 1 + k)).tail
        | .plain => openBefore mark (g + 1 + k) := rfl
    have hcount : excess mark g (k + 1) = excess mark g k + (mark (g + 1 + k)).weight := rfl
    have hpos := h (k + 1) le_rfl
    rw [hnext, hopen, hcount]
    cases hm : mark (g + 1 + k) with
    | opening => exact ⟨(g + 1 + k) :: inner, rfl, by simp [Mark.weight, hlen]⟩
    | plain => exact ⟨inner, rfl, by simp [Mark.weight, hlen]⟩
    | closing =>
      rw [hcount, hm, Mark.weight] at hpos
      cases inner with
      | nil =>
        simp only [List.length_nil, Nat.cast_zero] at hlen
        omega
      | cons i inner =>
        refine ⟨inner, rfl, ?_⟩
        simp only [List.length_cons, Nat.cast_add, Nat.cast_one] at hlen
        simp only [Mark.weight]
        omega

theorem Unclosed.succ {k : ℕ} (h : Unclosed mark g (g + 1 + k))
    (hpos : 0 ≤ excess mark g (k + 1)) : Unclosed mark g (g + 1 + k + 1) := by
  intro j hj
  rcases Nat.lt_or_ge k j with hlt | hge
  · obtain rfl : j = k + 1 := by omega
    exact hpos
  · exact h j (by omega)

/-- An open line is an opening one, and has not been closed. -/
theorem unclosed_of_mem_openBefore (h : g ∈ openBefore mark l) :
    mark g = .opening ∧ Unclosed mark g l := by
  induction l with
  | zero => simp [openBefore] at h
  | succ l ih =>
    have hkeep : g ∈ openBefore mark l →
        (∀ k, l = g + 1 + k → 0 ≤ excess mark g k + (mark l).weight) →
          mark g = .opening ∧ Unclosed mark g (l + 1) := by
      intro hmem hpos
      obtain ⟨hg, hun⟩ := ih hmem
      obtain ⟨k, rfl⟩ := Nat.exists_eq_add_of_le (lt_of_mem_openBefore hmem)
      exact ⟨hg, hun.succ (hpos k rfl)⟩
    simp only [openBefore] at h
    cases hm : mark l with
    | opening =>
      rw [hm] at h hkeep
      rcases List.mem_cons.1 h with rfl | hmem
      · refine ⟨hm, fun k hk => ?_⟩
        obtain rfl : k = 0 := by omega
        exact le_rfl
      · refine hkeep hmem fun k hl => ?_
        exact Int.add_nonneg ((ih hmem).2 k hl.ge) (by decide)
    | plain =>
      rw [hm] at h hkeep
      exact hkeep h fun k hl => Int.add_nonneg ((ih h).2 k hl.ge) le_rfl
    | closing =>
      rw [hm] at h hkeep
      have hmem := List.mem_of_mem_tail h
      refine hkeep hmem ?_
      rintro k rfl
      -- the line closed is another one, so `g` has an open line inside it
      obtain ⟨inner, hopen, hlen⟩ := openBefore_of_unclosed (ih hmem).1 k (ih hmem).2
      cases inner with
      | nil =>
        rw [hopen] at h
        exact absurd (lt_of_mem_openBefore h) (lt_irrefl g)
      | cons i inner =>
        simp only [List.length_cons, Nat.cast_add, Nat.cast_one] at hlen
        simp only [Mark.weight]
        omega

/-- The open lines, by counting. -/
theorem mem_openBefore_iff :
    g ∈ openBefore mark l ↔ mark g = .opening ∧ g < l ∧ Unclosed mark g l := by
  refine ⟨fun h => ?_, fun ⟨hg, hlt, h⟩ => ?_⟩
  · obtain ⟨hg, hun⟩ := unclosed_of_mem_openBefore h
    exact ⟨hg, lt_of_mem_openBefore h, hun⟩
  · obtain ⟨k, rfl⟩ := Nat.exists_eq_add_of_le (Nat.succ_le_of_lt hlt)
    obtain ⟨inner, hopen, -⟩ := openBefore_of_unclosed hg k h
    rw [hopen]
    exact List.mem_append_right _ List.mem_cons_self

/-- An opening line of a kind is open. -/
theorem exists_mem_openBefore_iff {P : ℕ → Prop} (hP : ∀ g, P g → mark g = .opening) :
    (∃ g ∈ openBefore mark l, P g) ↔ ∃ g < l, P g ∧ Unclosed mark g l := by
  refine exists_congr fun g => ?_
  rw [mem_openBefore_iff]
  constructor
  · rintro ⟨⟨-, hlt, hun⟩, hg⟩
    exact ⟨hlt, hg, hun⟩
  · rintro ⟨hlt, hg, hun⟩
    exact ⟨⟨hP g hg, hlt, hun⟩, hg⟩

theorem openBefore_eq_nil_iff :
    openBefore mark l = [] ↔ ∀ g < l, mark g = .opening → ¬Unclosed mark g l := by
  rw [List.eq_nil_iff_forall_not_mem]
  refine forall_congr' fun g => ?_
  rw [mem_openBefore_iff]
  tauto

end Conditionals
