import UniMPI.Lib.MachineInt
import UniMPI.RequestWrappers

/-!
# The offsets of the status array

`statuses_expand_inplace` computes its two byte offsets as products of the index and a
size cast to `int`, so in 32 bits. The larger one, into the 24-byte slots, is in
range up to index `89478485`, and an `int` count admits longer arrays
(`statusOffsets_exact_iff`).

`statusesExpandInplaceInt` is the loop with these products, without a value when one
overflows. Up to that length it is the loop with exact offsets, and beyond it overflows
in the first round, which has the largest index (`statusesExpandInplaceInt_eq`).

The regions of the `memcpy` overlap, so the routine is a parameter. If it moves its bytes
piece by piece, a slot survives the scan exactly if it held its record already
(`spreadStatuses_kept_iff`). `ArrayCall.runInt` is a call over one handle array with this
scan, and the call with exact offsets wherever it has a value (`ArrayCall.runInt_eq_some_iff`).
-/

namespace UniMPI

open ByteMemory CountedLoop MachineInt

/-! ## The sizes -/

/-- `sizeof(int)` -/
def sizeofInt : ℕ := 4

/-- `sizeof(size_t)` -/
def sizeofSizeT : ℕ := 8

/-- `sizeof(struct unimpi_status_legacy)`: five ints. -/
def sizeofStatusLegacy : ℕ :=
  5 * sizeofInt

/-- `sizeof(struct unimpi_status_openmpi)`: four ints and a `size_t`. -/
def sizeofStatusOpenmpi : ℕ :=
  4 * sizeofInt + sizeofSizeT

/-- `sizeof(union MPI_Status)`: the largest of its layouts, the common one having six ints. -/
def sizeofStatus : ℕ :=
  max (6 * sizeofInt) (max sizeofStatusLegacy sizeofStatusOpenmpi)

/-- `unimpi_status_union_size_is_24`. -/
theorem sizeofStatus_eq : sizeofStatus = 24 :=
  rfl

/-! ## The products -/

/-- `i * (int)sizeof(...)`. -/
def statusOffset (i : ℕ) (size : ℕ) : Option (BitVec 32) :=
  mulChecked (.ofNat 32 i) (.ofNat 32 size)

/-- The product at index `i` does not overflow, and is the exact offset. -/
def ExactOffset (size i : ℕ) : Prop :=
  ∃ offset, statusOffset i size = some offset ∧ offset.toInt = size * i

/-- At an index of an array, a product is exact if it is in range. -/
theorem exactOffset_iff {size i : ℕ} (hsize : size < 2 ^ 31) (hi : i < 2 ^ 31) :
    ExactOffset size i ↔ size * i < 2 ^ 31 := by
  have hint : (BitVec.ofNat 32 i).toInt = i := toInt_ofNat_of_lt hi
  have hsizeInt : (BitVec.ofNat 32 size).toInt = size := toInt_ofNat_of_lt hsize
  have hproduct : (BitVec.ofNat 32 i).toInt * (BitVec.ofNat 32 size).toInt =
      (size * i : ℕ) := by
    rw [hint, hsizeInt, Int.mul_comm, Int.natCast_mul]
  constructor
  · rintro ⟨offset, hoffset, -⟩
    have hrange := isSome_mulChecked_iff.1 (Option.isSome_of_eq_some hoffset)
    rw [hproduct] at hrange
    omega
  · intro hlt
    have hsome : (statusOffset i size).isSome := by
      refine isSome_mulChecked_iff.2 ?_
      rw [hproduct]
      omega
    obtain ⟨offset, hoffset⟩ := Option.isSome_iff_exists.1 hsome
    refine ⟨offset, hoffset, ?_⟩
    rw [toInt_of_mulChecked hoffset, hproduct, Int.natCast_mul]

/-- Every index the scan of `n` statuses visits has exact offsets for its slot and its record. -/
def StatusOffsetsExact (n : BitVec 32) : Prop :=
  ∀ i : ℕ, (i : Int) < n.toInt → ExactOffset sizeofStatus i ∧ ExactOffset sizeofStatusLegacy i

/-- The first overflow is that of the slot `89478486`. -/
theorem exactOffset_status_iff {i : ℕ} (hi : i < 2 ^ 31) :
    ExactOffset sizeofStatus i ↔ i < 89478486 := by
  rw [exactOffset_iff (by decide) hi, sizeofStatus_eq]
  omega

theorem exactOffset_legacy {i : ℕ} (hi : i < 89478486) : ExactOffset sizeofStatusLegacy i := by
  rw [exactOffset_iff (by decide) (by omega)]
  unfold sizeofStatusLegacy sizeofInt
  omega

/-- For every count, the offsets at all visited indices are exact if and only if the array has at
most `89478486` statuses. -/
theorem statusOffsets_exact_iff (n : BitVec 32) :
    StatusOffsetsExact n ↔ n.toInt ≤ 89478486 := by
  have hn : n.toInt < 2 ^ 31 := BitVec.toInt_lt
  constructor
  · intro h
    by_contra hlong
    have hslot := (h 89478486 (by omega)).1
    rw [exactOffset_status_iff (by decide)] at hslot
    exact lt_irrefl _ hslot
  · intro h i hi
    have hlt : i < 89478486 := by omega
    exact ⟨(exactOffset_status_iff (by omega)).2 hlt, exactOffset_legacy hlt⟩

/-- One status more. -/
theorem not_statusOffsets_exact : ¬StatusOffsetsExact 89478487#32 := by
  intro h
  have hslot := (h 89478486 (by decide)).1
  rw [exactOffset_status_iff (by decide)] at hslot
  exact lt_irrefl _ hslot

/-! ## The scan -/

/-- The round at index `i`, without a value when a product overflows. -/
def moveStatus (memcpy : Mem → ℕ → ℕ → ℕ → Mem) (statuses i : ℕ) (m : Mem) : Option Mem := do
  let dst ← statusOffset i sizeofStatus
  let src ← statusOffset i sizeofStatusLegacy
  return memcpy m (statuses + dst.toInt).toNat (statuses + src.toInt).toNat sizeofStatusLegacy

/-- `statuses_expand_inplace` with its `int` products and its `memcpy`. -/
def statusesExpandInplaceInt (memcpy : Mem → ℕ → ℕ → ℕ → Mem) (statuses : ℕ) (n : Int) (m : Mem) :
    Option Mem :=
  down (fun i s => s.bind (moveStatus memcpy statuses i)) n.toNat (some m)

/-- The same scan with exact offsets. -/
def spreadStatuses (memcpy : Mem → ℕ → ℕ → ℕ → Mem) (statuses : ℕ) (n : Int) (m : Mem) : Mem :=
  down (fun i m => memcpy m (statuses + 24 * i) (statuses + 20 * i) 20) n.toNat m

variable {memcpy : Mem → ℕ → ℕ → ℕ → Mem}

theorem spreadStatuses_of_overlapSafe (h : OverlapSafe memcpy) (statuses : ℕ) (n : Int) (m : Mem) :
    spreadStatuses memcpy statuses n m = statusesExpandInplace statuses n m := by
  unfold spreadStatuses statusesExpandInplace
  simp only [h _ _ _ _]

theorem moveStatus_of_exact {statuses i : ℕ} (hslot : ExactOffset sizeofStatus i)
    (hrecord : ExactOffset sizeofStatusLegacy i) (m : Mem) :
    moveStatus memcpy statuses i m =
      some (memcpy m (statuses + 24 * i) (statuses + 20 * i) 20) := by
  obtain ⟨dst, hdst, hdst'⟩ := hslot
  obtain ⟨src, hsrc, hsrc'⟩ := hrecord
  have hto : (statuses + dst.toInt).toNat = statuses + 24 * i := by
    rw [hdst', sizeofStatus_eq]
    omega
  have hfrom : (statuses + src.toInt).toNat = statuses + 20 * i := by
    rw [hsrc']
    unfold sizeofStatusLegacy sizeofInt
    omega
  simp only [moveStatus, hdst, hsrc, Option.bind_eq_bind, Option.bind_some, hto, hfrom]
  rfl

theorem moveStatus_of_overflow {statuses i : ℕ} (h : statusOffset i sizeofStatus = none) (m : Mem) :
    moveStatus memcpy statuses i m = none := by
  simp only [moveStatus, h, Option.bind_eq_bind, Option.bind_none]

/-- The scan is the one with exact offsets up to that length, and overflows beyond it. -/
theorem statusesExpandInplaceInt_eq (memcpy : Mem → ℕ → ℕ → ℕ → Mem) (statuses : ℕ) (n : Int)
    (m : Mem) :
    statusesExpandInplaceInt memcpy statuses n m =
      if n ≤ 89478486 then some (spreadStatuses memcpy statuses n m) else none := by
  unfold statusesExpandInplaceInt spreadStatuses
  split_ifs with h
  · refine down_bind_some _ m fun i t hi => ?_
    have hlt : i < 89478486 := by omega
    exact moveStatus_of_exact ((exactOffset_status_iff (by omega)).2 hlt) (exactOffset_legacy hlt) t
  · have hover : statusOffset 89478486 sizeofStatus = none := by decide
    exact down_bind_none (moveStatus_of_overflow hover) _ _ (by omega)

/-! ## Which slots the scan changes -/

/-- The scan has reached slot `i`: the slots from `i` on are as they were exactly where they held
their records already, and no byte outside them has changed. -/
structure SlotsFrom (statuses n : ℕ) (m : Mem) (i : ℕ) (t : Mem) : Prop where
  slots : ∀ j, i ≤ j → j < n →
    ((∀ k < 20, t (statuses + 24 * j + k) = m (statuses + 24 * j + k)) ↔
      ∀ k < 20, m (statuses + 24 * j + k) = m (statuses + 20 * j + k))
  rest : ∀ x, (∀ j, i ≤ j → j < n → x < statuses + 24 * j ∨ statuses + 24 * j + 20 ≤ x) →
    t x = m x

theorem SlotsFrom.pred (hcopy : CopiesInPieces memcpy) {statuses n i : ℕ} {m t : Mem} (hi : i < n)
    (h : SlotsFrom statuses n m (i + 1) t) :
    SlotsFrom statuses n m i (memcpy t (statuses + 24 * i) (statuses + 20 * i) 20) := by
  -- slot `i` and record `i` both end below slot `i + 1`
  have hbelow : ∀ x < statuses + 24 * (i + 1), t x = m x := fun x hx =>
    h.rest x fun j hj _ => Or.inl (by omega)
  refine ⟨fun j hj hn => ?_, fun x hx => ?_⟩
  · rcases Nat.eq_or_lt_of_le hj with rfl | hlt
    · have hkept : (∀ k < 20, memcpy t (statuses + 24 * i) (statuses + 20 * i) 20
            (statuses + 24 * i + k) = t (statuses + 24 * i + k)) ↔
          ∀ k < 20, t (statuses + 24 * i + k) = t (statuses + 20 * i + k) := hcopy.kept_iff
      have hslot : ∀ k < 20, t (statuses + 24 * i + k) = m (statuses + 24 * i + k) := fun k hk =>
        hbelow _ (by omega)
      have hrecord : ∀ k < 20, t (statuses + 20 * i + k) = m (statuses + 20 * i + k) := fun k hk =>
        hbelow _ (by omega)
      refine Iff.trans ?_ (hkept.trans ?_)
      · exact forall₂_congr fun k hk => by rw [hslot k hk]
      · exact forall₂_congr fun k hk => by rw [hslot k hk, hrecord k hk]
    · rw [← h.slots j hlt hn]
      refine forall₂_congr fun k hk => ?_
      rw [hcopy.apply_of_notMem t (by omega)]
  · rw [hcopy.apply_of_notMem t (hx i le_rfl hi)]
    exact h.rest x fun j hj hn => hx j (by omega) hn

/-- Spreading `n` statuses changes no byte outside the first twenty of each slot, and leaves a slot
as it was exactly if it held its record already. -/
theorem slotsFrom_spreadStatuses (hcopy : CopiesInPieces memcpy) (statuses : ℕ) (n : Int)
    (m : Mem) : SlotsFrom statuses n.toNat m 0 (spreadStatuses memcpy statuses n m) :=
  down_invariant _ m ⟨fun j hj hn => by omega, fun _ _ => rfl⟩ fun _ _ hi ht => ht.pred hcopy hi

/-- Where the first `c` slots are those of `m`, they come back as they were exactly if each one that
is spread held its record already. -/
theorem spreadStatuses_kept_iff (hcopy : CopiesInPieces memcpy) {statuses c : ℕ} {n : Int}
    {m t : Mem} (hold : AgreeOn statuses (statuses + 24 * c) t m) :
    AgreeOn statuses (statuses + 24 * c) (spreadStatuses memcpy statuses n t) m ↔
      ∀ i < c, i < n.toNat → ∀ k < 20,
        m (statuses + 24 * i + k) = m (statuses + 20 * i + k) := by
  have hslots := slotsFrom_spreadStatuses hcopy statuses n t
  have hplace : ∀ i < c, (∀ k < 20, t (statuses + 24 * i + k) = t (statuses + 20 * i + k)) ↔
      ∀ k < 20, m (statuses + 24 * i + k) = m (statuses + 20 * i + k) := fun i hi =>
    forall₂_congr fun k hk => by rw [hold _ (by omega) (by omega), hold _ (by omega) (by omega)]
  constructor
  · intro h i hc hn
    refine (hplace i hc).1 ((hslots.slots i (Nat.zero_le i) hn).1 fun k hk => ?_)
    rw [h _ (by omega) (by omega), hold _ (by omega) (by omega)]
  · intro h x hlo hhi
    rw [← hold x hlo hhi]
    obtain ⟨d, rfl⟩ := Nat.exists_eq_add_of_le hlo
    have hx : statuses + d = statuses + 24 * (d / 24) + d % 24 := by omega
    by_cases hin : d / 24 < n.toNat ∧ d % 24 < 20
    · have hc : d / 24 < c := by omega
      rw [hx]
      exact (hslots.slots _ (Nat.zero_le _) hin.1).2 ((hplace _ hc).2 (h _ hc hin.1)) _ hin.2
    · exact hslots.rest _ fun j _ hj => by omega

/-! ## Calls with these offsets -/

namespace ArrayCall

/-- The memory the backend leaves. -/
def left (native : ArrayCall → Mem → Int × Mem) (call : ArrayCall) (m : Mem) : Mem :=
  (native call (compressInplace call.array call.count m)).2

/-- The return code of the backend. -/
def ret (native : ArrayCall → Mem → Int × Mem) (call : ArrayCall) (m : Mem) : Int :=
  (native call (compressInplace call.array call.count m)).1

/-- The memory the statuses are spread in. -/
def beforeStatuses (native : ArrayCall → Mem → Int × Mem) (call : ArrayCall) (m : Mem) : Mem :=
  expandInplace call.array call.count (call.left native m)

/-- `materialize` with the `int` products and the `memcpy` of the source. -/
def materializeInt (memcpy : Mem → ℕ → ℕ → ℕ → Mem) (ignore : ℕ) (call : ArrayCall) (m : Mem) :
    Option Mem :=
  match call.statuses with
  | some (statuses, n) =>
    if statusesWritable ignore statuses then
      statusesExpandInplaceInt memcpy statuses (n.value m) m
    else some m
  | none => some m

/-- `run` with the `int` products and the `memcpy` of the source. It has no value when a product
overflows. -/
def runInt (memcpy : Mem → ℕ → ℕ → ℕ → Mem) (ignore : ℕ) (native : ArrayCall → Mem → Int × Mem)
    (call : ArrayCall) (m : Mem) : Option (Int × Mem) :=
  (call.materializeInt memcpy ignore (call.beforeStatuses native m)).map fun after =>
    (call.ret native m, after)

/-- A call that spreads statuses spreads at most `89478486` of them. -/
def SpreadsInRange (ignore : ℕ) (call : ArrayCall) (m : Mem) : Prop :=
  ∀ statuses n, call.statuses = some (statuses, n) → statusesWritable ignore statuses →
    n.value m ≤ 89478486

variable {ignore : ℕ} {native : ArrayCall → Mem → Int × Mem} {call : ArrayCall} {m : Mem}

theorem run_fst (ignore : ℕ) (native : ArrayCall → Mem → Int × Mem) (call : ArrayCall) (m : Mem) :
    (call.run ignore native m).1 = call.ret native m := by
  rw [run_eq]
  rfl

theorem run_snd (ignore : ℕ) (native : ArrayCall → Mem → Int × Mem) (call : ArrayCall) (m : Mem) :
    (call.run ignore native m).2 = call.materialize ignore (call.beforeStatuses native m) := by
  rw [run_eq]
  rfl

theorem materializeInt_none (h : call.statuses = none) :
    call.materializeInt memcpy ignore m = some m := by
  simp only [materializeInt, h]

theorem materializeInt_some {statuses : ℕ} {n : StatusCount}
    (h : call.statuses = some (statuses, n)) :
    call.materializeInt memcpy ignore m =
      if statusesWritable ignore statuses then
        statusesExpandInplaceInt memcpy statuses (n.value m) m
      else some m := by
  simp only [materializeInt, h]

theorem isSome_materializeInt_iff :
    (call.materializeInt memcpy ignore m).isSome ↔ call.SpreadsInRange ignore m := by
  unfold SpreadsInRange
  cases hs : call.statuses with
  | none => simp [materializeInt_none hs]
  | some p =>
    obtain ⟨statuses, n⟩ := p
    rw [materializeInt_some hs, statusesExpandInplaceInt_eq]
    constructor
    · rintro h statuses n ⟨⟩ hw
      rw [if_pos hw] at h
      by_contra hlong
      rw [if_neg hlong] at h
      exact absurd h (by decide)
    · intro h
      split_ifs with hw hlong
      · rfl
      · exact absurd (h statuses n rfl hw) hlong
      · rfl

/-- With copies that do not mind an overlap, what has a value is the spreading of the statuses. -/
theorem materializeInt_of_overlapSafe (hcopy : OverlapSafe memcpy)
    (h : call.SpreadsInRange ignore m) :
    call.materializeInt memcpy ignore m = some (call.materialize ignore m) := by
  cases hs : call.statuses with
  | none => rw [materializeInt_none hs, materialize_none hs]
  | some p =>
    obtain ⟨statuses, n⟩ := p
    rw [materializeInt_some hs, materialize_some hs, expandStatuses]
    split_ifs with hw
    · rw [statusesExpandInplaceInt_eq, if_pos (h statuses n hs hw),
        spreadStatuses_of_overlapSafe hcopy]
    · rfl

theorem isSome_runInt_iff :
    (call.runInt memcpy ignore native m).isSome ↔
      call.SpreadsInRange ignore (call.beforeStatuses native m) := by
  rw [runInt, Option.isSome_map, isSome_materializeInt_iff]

/-- Over copies that do not mind an overlap, a call that spreads at most `89478486` statuses is the
call with exact offsets, and any other overflows. -/
theorem runInt_eq_some_iff (hcopy : OverlapSafe memcpy) {r : Int × Mem} :
    call.runInt memcpy ignore native m = some r ↔
      call.SpreadsInRange ignore (call.beforeStatuses native m) ∧
        call.run ignore native m = r := by
  constructor
  · intro h
    have hrange := isSome_runInt_iff.1 (Option.isSome_of_eq_some h)
    refine ⟨hrange, ?_⟩
    rw [runInt, materializeInt_of_overlapSafe hcopy hrange] at h
    rw [← Option.some.inj h, ← run_snd, ← run_fst ignore]
  · rintro ⟨hrange, rfl⟩
    rw [runInt, materializeInt_of_overlapSafe hcopy hrange, ← run_snd, ← run_fst ignore]
    rfl

end ArrayCall

end UniMPI
