import Mathlib.Data.BitVec
import Mathlib.Logic.Function.Basic
import Mathlib.Tactic.Linarith

/-!
# Little-endian byte memory

A memory is a function from addresses to bytes. `load32`, `load64` and their
stores are the little-endian accesses of a 64-bit machine, `copy` the copy of a
range that reads all of it before it writes. A load at the stored address reads
the stored value (`load32_store32_self`), one that does not overlap it the old
value (`load32_store32_disjoint`), and a byte outside the stored range is
unchanged (`store32_apply_of_notMem`).

`wordsAt b m` is the memory as 32-bit words at the addresses `b`, `b + 4`, … .
A 32-bit store updates one word and a 64-bit store two neighbouring ones, so an
argument about aligned accesses can be made on words alone.

A copy routine that is called on overlapping ranges may do what `copy` does
(`OverlapSafe`), or move its bytes piece by piece (`CopiesInPieces`). Either way it
changes nothing exactly if the two ranges hold the same bytes
(`CopiesInPieces.kept_iff`).
-/

namespace ByteMemory

/-- Addresses to bytes. -/
abbrev Mem := ℕ → BitVec 8

/-- The `k`-th byte of a value, least significant first. -/
def byteOf {w : ℕ} (v : BitVec w) (k : ℕ) : BitVec 8 :=
  v.extractLsb' (8 * k) 8

/-- Write the `n` low bytes of `v` from address `a` on. -/
def store {w : ℕ} (n : ℕ) (m : Mem) (a : ℕ) (v : BitVec w) : Mem :=
  fun x => if a ≤ x ∧ x < a + n then byteOf v (x - a) else m x

def load32 (m : Mem) (a : ℕ) : BitVec 32 :=
  m (a + 3) ++ m (a + 2) ++ m (a + 1) ++ m a

def load64 (m : Mem) (a : ℕ) : BitVec 64 :=
  load32 m (a + 4) ++ load32 m a

def store32 (m : Mem) (a : ℕ) (v : BitVec 32) : Mem :=
  store 4 m a v

def store64 (m : Mem) (a : ℕ) (v : BitVec 64) : Mem :=
  store 8 m a v

/-- Copy `n` bytes from `src` to `dst`, reading the source before any write. -/
def copy (m : Mem) (dst src n : ℕ) : Mem :=
  fun x => if dst ≤ x ∧ x < dst + n then m (src + (x - dst)) else m x

/-- The two memories hold the same bytes on `[lo, hi)`. -/
def AgreeOn (lo hi : ℕ) (m m' : Mem) : Prop :=
  ∀ x, lo ≤ x → x < hi → m x = m' x

theorem AgreeOn.symm {lo hi : ℕ} {m m' : Mem} (h : AgreeOn lo hi m m') : AgreeOn lo hi m' m :=
  fun x hlo hhi => (h x hlo hhi).symm

theorem AgreeOn.load32_eq {lo hi a : ℕ} {m m' : Mem} (h : AgreeOn lo hi m m') (hlo : lo ≤ a)
    (hhi : a + 4 ≤ hi) : load32 m a = load32 m' a := by
  unfold load32
  rw [h a hlo (by omega), h (a + 1) (by omega) (by omega), h (a + 2) (by omega) (by omega),
    h (a + 3) (by omega) (by omega)]

theorem AgreeOn.load64_eq {lo hi a : ℕ} {m m' : Mem} (h : AgreeOn lo hi m m') (hlo : lo ≤ a)
    (hhi : a + 8 ≤ hi) : load64 m a = load64 m' a := by
  unfold load64
  rw [h.load32_eq hlo (by omega), h.load32_eq (a := a + 4) (by omega) (by omega)]

/-! ## Loads after stores -/

theorem store32_apply_of_notMem (m : Mem) {a x : ℕ} (v : BitVec 32) (h : x < a ∨ a + 4 ≤ x) :
    store32 m a v x = m x := by
  unfold store32 store
  rw [if_neg (by omega)]

theorem store64_apply_of_notMem (m : Mem) {a x : ℕ} (v : BitVec 64) (h : x < a ∨ a + 8 ≤ x) :
    store64 m a v x = m x := by
  unfold store64 store
  rw [if_neg (by omega)]

theorem copy_apply_of_notMem (m : Mem) {dst src n x : ℕ} (h : x < dst ∨ dst + n ≤ x) :
    copy m dst src n x = m x := by
  unfold copy
  rw [if_neg (by omega)]

/-- Four bytes put a 32-bit value together again. -/
theorem byteOf_append (v : BitVec 32) :
    byteOf v 3 ++ byteOf v 2 ++ byteOf v 1 ++ byteOf v 0 = v := by
  apply BitVec.eq_of_getLsbD_eq
  intro i hi
  simp only [byteOf, BitVec.getLsbD_append, BitVec.getLsbD_extractLsb']
  grind

theorem load32_store32_self (m : Mem) (a : ℕ) (v : BitVec 32) :
    load32 (store32 m a v) a = v := by
  have h : ∀ k < 4, store32 m a v (a + k) = byteOf v k := by
    intro k hk
    unfold store32 store
    rw [if_pos (by omega), Nat.add_sub_cancel_left]
  unfold load32
  rw [h 3 (by omega), h 2 (by omega), h 1 (by omega), show store32 m a v a = byteOf v 0 from
    h 0 (by omega)]
  exact byteOf_append v

theorem load32_store32_disjoint (m : Mem) {a b : ℕ} (v : BitVec 32) (h : b + 4 ≤ a ∨ a + 4 ≤ b) :
    load32 (store32 m a v) b = load32 m b := by
  have hagree : AgreeOn b (b + 4) (store32 m a v) m := by
    intro x _ _
    exact store32_apply_of_notMem m v (by omega)
  exact hagree.load32_eq le_rfl le_rfl

/-- A 64-bit store is a store of its low half, then of its high half. -/
theorem store64_eq_store32 (m : Mem) (a : ℕ) (v : BitVec 64) :
    store64 m a v =
      store32 (store32 m a (v.extractLsb' 0 32)) (a + 4) (v.extractLsb' 32 32) := by
  ext x : 1
  unfold store64 store32 store byteOf
  by_cases hlo : a ≤ x ∧ x < a + 4
  · rw [if_pos (by omega), if_neg (by omega), if_pos hlo]
    apply BitVec.eq_of_getLsbD_eq
    intro i hi
    simp only [BitVec.getLsbD_extractLsb']
    grind
  · by_cases hhi : a + 4 ≤ x ∧ x < a + 4 + 4
    · rw [if_pos (by omega), if_pos hhi]
      apply BitVec.eq_of_getLsbD_eq
      intro i hi
      simp only [BitVec.getLsbD_extractLsb']
      grind
    · rw [if_neg (by omega), if_neg hhi, if_neg hlo]

/-- The low half of a 64-bit load is the 32-bit load at its address. -/
theorem load64_low (m : Mem) (a : ℕ) : (load64 m a).setWidth 32 = load32 m a := by
  rw [BitVec.setWidth_eq_extractLsb' (by decide)]
  exact BitVec.extractLsb'_append_eq_right

theorem load64_high (m : Mem) (a : ℕ) : (load64 m a).extractLsb' 32 32 = load32 m (a + 4) :=
  BitVec.extractLsb'_append_eq_left

/-- A 64-bit load is determined by its halves. -/
theorem load64_eq_append_iff (m : Mem) (a : ℕ) (hi lo : BitVec 32) :
    load64 m a = hi ++ lo ↔ load32 m (a + 4) = hi ∧ load32 m a = lo := by
  constructor
  · intro h
    rw [← load64_high, ← load64_low, h, BitVec.setWidth_eq_extractLsb' (by decide)]
    exact ⟨BitVec.extractLsb'_append_eq_left, BitVec.extractLsb'_append_eq_right⟩
  · rintro ⟨rfl, rfl⟩
    rfl

/-! ## Copies of overlapping ranges -/

/-- All of the source is read before any write. -/
def OverlapSafe (memcpy : Mem → ℕ → ℕ → ℕ → Mem) : Prop :=
  ∀ m dst src n, memcpy m dst src n = copy m dst src n

/-- Copy piece after piece, each given by its offset and its length. -/
def copyPieces (dst src : ℕ) : List (ℕ × ℕ) → Mem → Mem
  | [], m => m
  | p :: ps, m => copyPieces dst src ps (copy m (dst + p.1) (src + p.1) p.2)

/-- Every one of the first `n` bytes is in a piece, and no byte in two. -/
structure Tiles (n : ℕ) (ps : List (ℕ × ℕ)) : Prop where
  mem_iff : ∀ k, k < n ↔ ∃ p ∈ ps, p.1 ≤ k ∧ k < p.1 + p.2
  apart : ps.Pairwise fun p q => p.1 + p.2 ≤ q.1 ∨ q.1 + q.2 ≤ p.1

/-- The bytes move in pieces, in some order. A piece may read what an earlier one wrote. -/
def CopiesInPieces (memcpy : Mem → ℕ → ℕ → ℕ → Mem) : Prop :=
  ∀ m dst src n, ∃ ps, Tiles n ps ∧ memcpy m dst src n = copyPieces dst src ps m

theorem OverlapSafe.copiesInPieces {memcpy : Mem → ℕ → ℕ → ℕ → Mem} (h : OverlapSafe memcpy) :
    CopiesInPieces memcpy := by
  intro m dst src n
  refine ⟨[(0, n)], ⟨fun k => by simp, List.pairwise_singleton _ _⟩, ?_⟩
  rw [h]
  rfl

theorem copyPieces_apply_of_notMem {dst src x : ℕ} :
    ∀ (ps : List (ℕ × ℕ)) (m : Mem), (∀ p ∈ ps, x < dst + p.1 ∨ dst + p.1 + p.2 ≤ x) →
      copyPieces dst src ps m x = m x
  | [], _, _ => rfl
  | p :: ps, m, h => by
    rw [copyPieces, copyPieces_apply_of_notMem ps _ fun q hq => h q (List.mem_cons_of_mem _ hq)]
    exact copy_apply_of_notMem m (h p List.mem_cons_self)

/-- A copy of the same bytes changes nothing. -/
theorem copy_of_eq {m : Mem} {dst src n : ℕ} (h : ∀ k < n, m (dst + k) = m (src + k)) :
    copy m dst src n = m := by
  ext x : 1
  unfold copy
  split_ifs with hx
  · rw [← h (x - dst) (by omega), Nat.add_sub_cancel' hx.1]
  · rfl

theorem copyPieces_of_eq {m : Mem} {dst src : ℕ} :
    ∀ ps : List (ℕ × ℕ),
      (∀ p ∈ ps, ∀ k, p.1 ≤ k → k < p.1 + p.2 → m (dst + k) = m (src + k)) →
        copyPieces dst src ps m = m
  | [], _ => rfl
  | p :: ps, h => by
    have hp : copy m (dst + p.1) (src + p.1) p.2 = m := copy_of_eq fun k hk => by
      rw [Nat.add_assoc, Nat.add_assoc]
      exact h p List.mem_cons_self _ (by omega) (by omega)
    rw [copyPieces, hp]
    exact copyPieces_of_eq ps fun q hq => h q (List.mem_cons_of_mem _ hq)

/-- A byte ends as its source was at the start, or as its source ends. -/
theorem copyPieces_source {dst src : ℕ} :
    ∀ (ps : List (ℕ × ℕ)) (m : Mem),
      ps.Pairwise (fun p q => p.1 + p.2 ≤ q.1 ∨ q.1 + q.2 ≤ p.1) →
        ∀ p ∈ ps, ∀ k, p.1 ≤ k → k < p.1 + p.2 →
          copyPieces dst src ps m (dst + k) = m (src + k) ∨
            copyPieces dst src ps m (dst + k) = copyPieces dst src ps m (src + k)
  | q :: ps, m, hapart, p, hp, k, hlo, hhi => by
    obtain ⟨hq, htail⟩ := List.pairwise_cons.1 hapart
    set m' := copy m (dst + q.1) (src + q.1) q.2 with hm'
    -- what the first piece writes stays
    have hkept : ∀ i, q.1 ≤ i → i < q.1 + q.2 →
        copyPieces dst src ps m' (dst + i) = m' (dst + i) := fun i hi hi' =>
      copyPieces_apply_of_notMem ps m' fun r hr => by have := hq r hr; omega
    rw [copyPieces, ← hm']
    rcases List.mem_cons.1 hp with rfl | hp
    · refine Or.inl ?_
      rw [hkept k hlo hhi, hm', copy, if_pos (by omega)]
      congr 1
      omega
    · rcases copyPieces_source ps m' htail p hp k hlo hhi with h | h
      · rw [h]
        by_cases hin : dst + q.1 ≤ src + k ∧ src + k < dst + q.1 + q.2
        · have hsrc := hkept (src + k - dst) (by omega) (by omega)
          rw [show dst + (src + k - dst) = src + k by omega] at hsrc
          exact Or.inr hsrc.symm
        · exact Or.inl (copy_apply_of_notMem m (by omega))
      · exact Or.inr h

section CopiesInPieces

variable {memcpy : Mem → ℕ → ℕ → ℕ → Mem} {m : Mem} {dst src n : ℕ}

theorem CopiesInPieces.apply_of_notMem (h : CopiesInPieces memcpy) (m : Mem) {x : ℕ}
    (hx : x < dst ∨ dst + n ≤ x) : memcpy m dst src n x = m x := by
  obtain ⟨ps, htiles, heq⟩ := h m dst src n
  rw [heq]
  refine copyPieces_apply_of_notMem ps m fun p hp => ?_
  by_contra hin
  have := (htiles.mem_iff (x - dst)).2 ⟨p, hp, by omega, by omega⟩
  omega

/-- The target is left as it was exactly if it held the bytes of the source. -/
theorem CopiesInPieces.kept_iff (h : CopiesInPieces memcpy) :
    (∀ k < n, memcpy m dst src n (dst + k) = m (dst + k)) ↔
      ∀ k < n, m (dst + k) = m (src + k) := by
  obtain ⟨ps, htiles, heq⟩ := h m dst src n
  constructor
  · intro hkept k hk
    have hall : memcpy m dst src n (src + k) = m (src + k) := by
      by_cases hin : dst ≤ src + k ∧ src + k < dst + n
      · have := hkept (src + k - dst) (by omega)
        rwa [Nat.add_sub_cancel' hin.1] at this
      · exact h.apply_of_notMem m (by omega)
    obtain ⟨p, hp, hlo, hhi⟩ := (htiles.mem_iff k).1 hk
    rw [← hkept k hk]
    rcases copyPieces_source ps m htiles.apart p hp k hlo hhi with hsource | hsource
    · rw [heq, hsource]
    · rw [← hall, heq, hsource]
  · intro hsame k _
    rw [heq, copyPieces_of_eq ps fun p hp k hlo hhi => ?_]
    exact hsame k ((htiles.mem_iff k).2 ⟨p, hp, hlo, hhi⟩)

end CopiesInPieces

/-! ## Memory as words -/

/-- The words at `b`, `b + 4`, `b + 8`, … . -/
def wordsAt (b : ℕ) (m : Mem) : ℕ → BitVec 32 :=
  fun k => load32 m (b + 4 * k)

theorem wordsAt_store32 (b : ℕ) (m : Mem) (k : ℕ) (v : BitVec 32) :
    wordsAt b (store32 m (b + 4 * k) v) = Function.update (wordsAt b m) k v := by
  ext j : 1
  unfold wordsAt
  by_cases hj : j = k
  · subst hj
    rw [Function.update_self, load32_store32_self]
  · rw [Function.update_of_ne hj, load32_store32_disjoint]
    omega

theorem wordsAt_store64 (b : ℕ) (m : Mem) (k : ℕ) (v : BitVec 64) :
    wordsAt b (store64 m (b + 4 * k) v) =
      Function.update (Function.update (wordsAt b m) k (v.extractLsb' 0 32)) (k + 1)
        (v.extractLsb' 32 32) := by
  rw [store64_eq_store32, show b + 4 * k + 4 = b + 4 * (k + 1) by omega, wordsAt_store32,
    wordsAt_store32]

end ByteMemory
