import UniMPI.Lib.ByteMemory
import UniMPI.Lib.CountedLoop

/-!
# Handle arrays rewritten in place

An integer-handle backend takes arrays of 4-byte handles where the facade's
callers hold 8-byte ones. The adapters rewrite the caller's array in place:
`reqs_compress_inplace` and `dtypes_compress_inplace` scan forward and write the
low word of element `i` into the `i`-th 4-byte slot, `reqs_expand_inplace` and
`dtypes_restore_inplace` scan backward and sign-extend the `i`-th slot into
element `i`.

Both directions overwrite the array they still read. On the 32-bit words of
memory each loop is nevertheless one simultaneous move: `narrowed` for the
forward scan (`wordsAt_compressInplace`), `widened` for the backward one
(`wordsAt_expandInplace`), because the forward scan writes word `i` after it has
read word `2 * i`, and the backward scan writes words `2 * i` and `2 * i + 1`
when only words up to `i` are still to be read.
-/

namespace UniMPI

open ByteMemory CountedLoop

/-! ## The adapters -/

/-- The loop of the compressing helpers: the low word of element `i` goes to the `i`-th 4-byte
slot, for `i` from `1` up; element `0` already begins with its low word. -/
def compressInplace (base : ℕ) (n : Int) (m : Mem) : Mem :=
  up (fun i m => store32 m (base + 4 * i)
    ((load64 m (base + 8 * i) &&& 0xFFFFFFFF#64).setWidth 32)) 1 (n - 1).toNat m

/-- The loop of the expanding helpers: the `i`-th 4-byte slot, sign-extended, goes to element `i`,
for `i` from `n - 1` down. -/
def expandInplace (base : ℕ) (n : Int) (m : Mem) : Mem :=
  down (fun i m => store64 m (base + 8 * i) ((load32 m (base + 4 * i)).signExtend 64)) n.toNat m

/-- `reqs_compress_inplace`. -/
def reqsCompressInplace (reqs : ℕ) (n : Int) (m : Mem) : Mem :=
  compressInplace reqs n m

/-- `reqs_expand_inplace`. -/
def reqsExpandInplace (reqs : ℕ) (n : Int) (m : Mem) : Mem :=
  expandInplace reqs n m

/-- `dtypes_compress_inplace`. -/
def dtypesCompressInplace (types : ℕ) (n : Int) (m : Mem) : Mem :=
  compressInplace types n m

/-- `dtypes_restore_inplace`. -/
def dtypesRestoreInplace (types : ℕ) (n : Int) (m : Mem) : Mem :=
  expandInplace types n m

/-! ## Halves of a handle -/

/-- The word that sign extension puts above `v`. -/
def signWord (v : BitVec 32) : BitVec 32 :=
  if v.msb then BitVec.allOnes 32 else 0#32

/-- The native form of an 8-byte handle: its low 32 bits. -/
def nativeForm (h : BitVec 64) : BitVec 32 :=
  h.setWidth 32

theorem signExtend_eq_append (v : BitVec 32) : v.signExtend 64 = signWord v ++ v := by
  rw [BitVec.signExtend_eq_append_of_le (by decide)]
  rfl

theorem signWord_signWord (v : BitVec 32) : signWord (signWord v) = signWord v := by
  unfold signWord
  cases v.msb <;> rfl

theorem low_of_mask (h : BitVec 64) : (h &&& 0xFFFFFFFF#64).setWidth 32 = nativeForm h := by
  rw [BitVec.setWidth_and]
  exact BitVec.and_allOnes

theorem signExtend_low (v : BitVec 32) : (v.signExtend 64).extractLsb' 0 32 = v := by
  rw [signExtend_eq_append]
  exact BitVec.extractLsb'_append_eq_right

theorem signExtend_high (v : BitVec 32) : (v.signExtend 64).extractLsb' 32 32 = signWord v := by
  rw [signExtend_eq_append]
  exact BitVec.extractLsb'_append_eq_left

theorem nativeForm_load64 (m : Mem) (a : ℕ) : nativeForm (load64 m a) = load32 m a :=
  load64_low m a

/-- An element holds the sign extension of `v` exactly when its two words do. -/
theorem load64_eq_signExtend_iff (m : Mem) (a : ℕ) (v : BitVec 32) :
    load64 m a = v.signExtend 64 ↔ load32 m a = v ∧ load32 m (a + 4) = signWord v := by
  rw [signExtend_eq_append, load64_eq_append_iff, and_comm]

/-! ## The loops on words -/

/-- Words `α` to `α + n` hold the even words from `α` on. -/
def narrowed (W : ℕ → BitVec 32) (α n : ℕ) : ℕ → BitVec 32 :=
  fun x => if α ≤ x ∧ x < α + n then W (α + 2 * (x - α)) else W x

/-- From word `α + 2 * i` to `α + 2 * n`: the words from `α` on, each followed by its sign word. -/
def widenedFrom (W : ℕ → BitVec 32) (α i n : ℕ) : ℕ → BitVec 32 :=
  fun x => if α + 2 * i ≤ x ∧ x < α + 2 * n then
    if (x - α) % 2 = 0 then W (α + (x - α) / 2) else signWord (W (α + (x - α) / 2))
  else W x

/-- The words of a whole backward scan. -/
def widened (W : ℕ → BitVec 32) (α n : ℕ) : ℕ → BitVec 32 :=
  widenedFrom W α 0 n

theorem narrowed_apply (W : ℕ → BitVec 32) {α n i : ℕ} (h : i < n) :
    narrowed W α n (α + i) = W (α + 2 * i) := by
  unfold narrowed
  rw [if_pos (by omega), Nat.add_sub_cancel_left]

theorem narrowed_of_notMem (W : ℕ → BitVec 32) {α n x : ℕ} (h : x < α ∨ α + n ≤ x) :
    narrowed W α n x = W x := by
  unfold narrowed
  rw [if_neg (by omega)]

theorem narrowed_one (W : ℕ → BitVec 32) (α : ℕ) : narrowed W α 1 = W := by
  ext x : 1
  by_cases hx : x = α
  · subst hx
    exact narrowed_apply W (i := 0) (by omega)
  · exact narrowed_of_notMem W (by omega)

theorem narrowed_succ (W : ℕ → BitVec 32) (α n : ℕ) :
    narrowed W α (n + 1) = Function.update (narrowed W α n) (α + n) (W (α + 2 * n)) := by
  ext x : 1
  by_cases hx : x = α + n
  · subst hx
    rw [Function.update_self, narrowed_apply W (by omega)]
  · rw [Function.update_of_ne hx]
    unfold narrowed
    by_cases hin : α ≤ x ∧ x < α + n
    · rw [if_pos hin, if_pos (by omega)]
    · rw [if_neg hin, if_neg (by omega)]

theorem widened_even (W : ℕ → BitVec 32) {α n i : ℕ} (h : i < n) :
    widened W α n (α + 2 * i) = W (α + i) := by
  unfold widened widenedFrom
  rw [if_pos (by omega), if_pos (by omega), show (α + 2 * i - α) / 2 = i by omega]

theorem widened_odd (W : ℕ → BitVec 32) {α n i : ℕ} (h : i < n) :
    widened W α n (α + 2 * i + 1) = signWord (W (α + i)) := by
  unfold widened widenedFrom
  rw [if_pos (by omega), if_neg (by omega), show (α + 2 * i + 1 - α) / 2 = i by omega]

theorem widenedFrom_of_notMem (W : ℕ → BitVec 32) {α i n x : ℕ}
    (h : x < α + 2 * i ∨ α + 2 * n ≤ x) : widenedFrom W α i n x = W x := by
  unfold widenedFrom
  rw [if_neg (by omega)]

theorem widened_of_notMem (W : ℕ → BitVec 32) {α n x : ℕ} (h : x < α ∨ α + 2 * n ≤ x) :
    widened W α n x = W x :=
  widenedFrom_of_notMem W (by omega)

theorem widenedFrom_self (W : ℕ → BitVec 32) (α n : ℕ) : widenedFrom W α n n = W := by
  ext x : 1
  exact widenedFrom_of_notMem W (by omega)

theorem widenedFrom_pred (W : ℕ → BitVec 32) {α i n : ℕ} (hi : i < n) :
    widenedFrom W α i n =
      Function.update (Function.update (widenedFrom W α (i + 1) n) (α + 2 * i) (W (α + i)))
        (α + 2 * i + 1) (signWord (W (α + i))) := by
  ext x : 1
  by_cases hodd : x = α + 2 * i + 1
  · subst hodd
    rw [Function.update_self]
    unfold widenedFrom
    rw [if_pos (by omega), if_neg (by omega), show (α + 2 * i + 1 - α) / 2 = i by omega]
  by_cases heven : x = α + 2 * i
  · subst heven
    rw [Function.update_of_ne hodd, Function.update_self]
    unfold widenedFrom
    rw [if_pos (by omega), if_pos (by omega), show (α + 2 * i - α) / 2 = i by omega]
  · rw [Function.update_of_ne hodd, Function.update_of_ne heven]
    unfold widenedFrom
    by_cases hin : α + 2 * (i + 1) ≤ x ∧ x < α + 2 * n
    · rw [if_pos hin, if_pos (by omega)]
    · rw [if_neg hin, if_neg (by omega)]

/-- The forward scan moves all low words at once. -/
theorem wordsAt_compressInplace (b α : ℕ) (n : Int) (m : Mem) :
    wordsAt b (compressInplace (b + 4 * α) n m) = narrowed (wordsAt b m) α n.toNat := by
  set W := wordsAt b m with hW
  have hend : wordsAt b (compressInplace (b + 4 * α) n m) =
      narrowed W α (1 + (n - 1).toNat) := by
    refine up_invariant (P := fun i t => wordsAt b t = narrowed W α i) _ 1 m
      (narrowed_one W α).symm ?_
    intro i t _ _ ht
    -- word `2 * i` is not rewritten yet: only words below `i` are
    have hread : load32 t (b + 4 * α + 8 * i) = W (α + 2 * i) := by
      have hword : wordsAt b t (α + 2 * i) = W (α + 2 * i) := by
        rw [ht, narrowed_of_notMem W (by omega)]
      rw [← hword, wordsAt]
      congr 1
      omega
    rw [low_of_mask, nativeForm_load64, hread,
      show b + 4 * α + 4 * i = b + 4 * (α + i) by omega, wordsAt_store32, ht, narrowed_succ]
  rcases Int.lt_or_le 0 n with hn | hn
  · rw [show n.toNat = 1 + (n - 1).toNat by omega]
    exact hend
  · have h0 : (n - 1).toNat = 0 := by omega
    rw [show n.toNat = 0 by omega]
    unfold compressInplace
    rw [h0]
    ext x : 1
    exact (narrowed_of_notMem W (by omega)).symm

/-- The backward scan moves and sign-extends all slots at once. -/
theorem wordsAt_expandInplace (b α : ℕ) (n : Int) (m : Mem) :
    wordsAt b (expandInplace (b + 4 * α) n m) = widened (wordsAt b m) α n.toNat := by
  set W := wordsAt b m with hW
  refine down_invariant (P := fun i t => wordsAt b t = widenedFrom W α i n.toNat) n.toNat m
    (widenedFrom_self W α n.toNat).symm ?_
  intro i t hi ht
  -- slot `i` is below every word that has been rewritten
  have hread : load32 t (b + 4 * α + 4 * i) = W (α + i) := by
    have hword : wordsAt b t (α + i) = W (α + i) := by
      rw [ht, widenedFrom_of_notMem W (by omega)]
    rw [← hword, wordsAt]
    congr 1
    omega
  rw [hread, show b + 4 * α + 8 * i = b + 4 * (α + 2 * i) by omega, wordsAt_store64,
    signExtend_low, signExtend_high, ht, widenedFrom_pred W hi]

/-! ## The loops on bytes -/

/-- The forward scan writes no byte outside the int slots `1` to `n - 1`. -/
theorem compressInplace_apply_of_notMem (base : ℕ) (n : Int) (m : Mem) {x : ℕ}
    (h : x < base ∨ base + 4 * n.toNat ≤ x) : compressInplace base n m x = m x := by
  refine up_invariant (P := fun _ t => t x = m x) _ _ m rfl ?_
  intro i t h1 h2 ht
  rw [store32_apply_of_notMem t _ (by omega), ht]

/-- The backward scan writes no byte outside the `n` elements. -/
theorem expandInplace_apply_of_notMem (base : ℕ) (n : Int) (m : Mem) {x : ℕ}
    (h : x < base ∨ base + 8 * n.toNat ≤ x) : expandInplace base n m x = m x := by
  refine down_invariant (P := fun _ t => t x = m x) _ m rfl ?_
  intro i t hi ht
  rw [store64_apply_of_notMem t _ (by omega), ht]

/-! ## The loops on elements -/

/-- The int slots of a compressed array hold the native forms in order. -/
theorem load32_compressInplace (base : ℕ) (n : Int) (m : Mem) {i : ℕ} (hi : i < n.toNat) :
    load32 (compressInplace base n m) (base + 4 * i) = nativeForm (load64 m (base + 8 * i)) := by
  have h := congrFun (wordsAt_compressInplace base 0 n m) (0 + i)
  rw [narrowed_apply _ hi] at h
  rw [nativeForm_load64]
  simpa [wordsAt, ← Nat.mul_assoc] using h

/-- The elements of an expanded array hold the sign-extended int slots in order. -/
theorem load64_expandInplace (base : ℕ) (n : Int) (m : Mem) {i : ℕ} (hi : i < n.toNat) :
    load64 (expandInplace base n m) (base + 8 * i) =
      (load32 m (base + 4 * i)).signExtend 64 := by
  have hwords := wordsAt_expandInplace base 0 n m
  have heven := congrFun hwords (0 + 2 * i)
  have hodd := congrFun hwords (0 + 2 * i + 1)
  rw [widened_even _ hi] at heven
  rw [widened_odd _ hi] at hodd
  rw [load64_eq_signExtend_iff]
  constructor
  · simpa [wordsAt, ← Nat.mul_assoc] using heven
  · simpa [wordsAt, ← Nat.mul_assoc, Nat.mul_add, Nat.add_assoc] using hodd

end UniMPI
