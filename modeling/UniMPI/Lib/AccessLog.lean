import UniMPI.Lib.ByteMemory
import UniMPI.Lib.CountedLoop

/-!
# Logged accesses

`Logged π` is a memory together with the accesses made so far, each with the
pointer, of type `π`, it was made through. The operations do what those of
`ByteMemory` do and record it, so forgetting the log gives back the plain program
(`mem_down`, `mem_up`). The log of a counted loop is the accesses of its rounds in
order, and an access is in it exactly if some round makes it (`mem_log_down`,
`mem_log_up`).
-/

namespace ByteMemory

open CountedLoop

/-- An access to memory: where it is and how many bytes it takes. -/
inductive Access
  | load (a n : ℕ)
  | store (a n : ℕ)
  | copy (dst src n : ℕ)
deriving DecidableEq

/-- The access reads or writes the byte at `x`. -/
def Access.Touches : Access → ℕ → Prop
  | load a n, x | store a n, x => a ≤ x ∧ x < a + n
  | copy dst src n, x => (dst ≤ x ∧ x < dst + n) ∨ (src ≤ x ∧ x < src + n)

/-- The access stays in `[lo, hi)`. -/
def Access.Within (lo hi : ℕ) (e : Access) : Prop :=
  ∀ x, e.Touches x → lo ≤ x ∧ x < hi

theorem Access.within_copy_iff {lo hi dst src n : ℕ} (hn : 0 < n) :
    (Access.copy dst src n).Within lo hi ↔
      (lo ≤ dst ∧ dst + n ≤ hi) ∧ lo ≤ src ∧ src + n ≤ hi := by
  constructor
  · intro h
    have hdst := h dst (Or.inl ⟨le_rfl, by omega⟩)
    have hdst' := h (dst + n - 1) (Or.inl ⟨by omega, by omega⟩)
    have hsrc := h src (Or.inr ⟨le_rfl, by omega⟩)
    have hsrc' := h (src + n - 1) (Or.inr ⟨by omega, by omega⟩)
    omega
  · rintro ⟨hdst, hsrc⟩ x (hx | hx) <;> omega

/-- A memory and the accesses that led to it. -/
structure Logged (π : Type*) where
  mem : Mem
  log : List (π × Access)

namespace Logged

variable {π : Type*}

/-- A memory no one has accessed. -/
def ofMem (m : Mem) : Logged π :=
  ⟨m, []⟩

def load32 (p : π) (a : ℕ) (s : Logged π) : BitVec 32 × Logged π :=
  (ByteMemory.load32 s.mem a, ⟨s.mem, s.log ++ [(p, .load a 4)]⟩)

def load64 (p : π) (a : ℕ) (s : Logged π) : BitVec 64 × Logged π :=
  (ByteMemory.load64 s.mem a, ⟨s.mem, s.log ++ [(p, .load a 8)]⟩)

def store32 (p : π) (a : ℕ) (v : BitVec 32) (s : Logged π) : Logged π :=
  ⟨ByteMemory.store32 s.mem a v, s.log ++ [(p, .store a 4)]⟩

def store64 (p : π) (a : ℕ) (v : BitVec 64) (s : Logged π) : Logged π :=
  ⟨ByteMemory.store64 s.mem a v, s.log ++ [(p, .store a 8)]⟩

def memcpy (p : π) (dst src n : ℕ) (s : Logged π) : Logged π :=
  ⟨copy s.mem dst src n, s.log ++ [(p, .copy dst src n)]⟩

/-- A call of another program, whose accesses are its own. -/
def call {α : Type*} (f : Mem → α × Mem) (s : Logged π) : α × Logged π :=
  ((f s.mem).1, ⟨(f s.mem).2, s.log⟩)

/-- Forgetting the log of a downward loop. -/
theorem mem_down {body : ℕ → Logged π → Logged π} {body' : ℕ → Mem → Mem}
    (h : ∀ i s, (body i s).mem = body' i s.mem) (n : ℕ) (s : Logged π) :
    (down body n s).mem = down body' n s.mem :=
  down_map mem h n s

theorem mem_up {body : ℕ → Logged π → Logged π} {body' : ℕ → Mem → Mem}
    (h : ∀ i s, (body i s).mem = body' i s.mem) (lo k : ℕ) (s : Logged π) :
    (up body lo k s).mem = up body' lo k s.mem :=
  up_map mem h k lo s

/-- The log of a downward loop is what some round adds. -/
theorem mem_log_down {body : ℕ → Logged π → Logged π} (round : ℕ → List (π × Access))
    (h : ∀ i s, (body i s).log = s.log ++ round i) {e : π × Access} :
    ∀ (n : ℕ) (s : Logged π), e ∈ (down body n s).log ↔ e ∈ s.log ∨ ∃ i < n, e ∈ round i
  | 0, s => by simp [down]
  | n + 1, s => by
    rw [down, mem_log_down round h n, h, List.mem_append, or_assoc]
    refine or_congr_right ⟨?_, ?_⟩
    · rintro (hn | ⟨i, hi, he⟩)
      · exact ⟨n, Nat.lt_succ_self n, hn⟩
      · exact ⟨i, Nat.lt_succ_of_lt hi, he⟩
    · rintro ⟨i, hi, he⟩
      rcases Nat.lt_succ_iff_lt_or_eq.1 hi with hlt | rfl
      · exact Or.inr ⟨i, hlt, he⟩
      · exact Or.inl he

/-- The log of an upward loop is what some round adds. -/
theorem mem_log_up {body : ℕ → Logged π → Logged π} (round : ℕ → List (π × Access))
    (h : ∀ i s, (body i s).log = s.log ++ round i) {e : π × Access} :
    ∀ (k lo : ℕ) (s : Logged π),
      e ∈ (up body lo k s).log ↔ e ∈ s.log ∨ ∃ i, lo ≤ i ∧ i < lo + k ∧ e ∈ round i
  | 0, lo, s => by
    simp only [up, Nat.add_zero]
    refine (or_iff_left ?_).symm
    rintro ⟨i, hlo, hhi, -⟩
    omega
  | k + 1, lo, s => by
    rw [up, mem_log_up round h k, h, List.mem_append, or_assoc]
    refine or_congr_right ⟨?_, ?_⟩
    · rintro (hlo | ⟨i, hi, hk, he⟩)
      · exact ⟨lo, le_rfl, by omega, hlo⟩
      · exact ⟨i, by omega, by omega, he⟩
    · rintro ⟨i, hi, hk, he⟩
      rcases Nat.eq_or_lt_of_le hi with rfl | hlt
      · exact Or.inl he
      · exact Or.inr ⟨i, by omega, by omega, he⟩

end Logged

end ByteMemory
