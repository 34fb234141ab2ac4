import UniMPI.RequestWrappers

/-!
# Packed statuses in wide slots

An integer-handle backend packs its 20-byte records from the start of the
caller's array of 24-byte statuses, and `statuses_expand_inplace` moves record
`i` to slot `i`, the last record first. Slots and records overlap within the one
array, but every write lands at or above the records that are still to be moved,
so each record arrives as the backend left it (`statusesExpandInplace_record`)
and the readers of the legacy layout find its fields in its slot.
-/

namespace UniMPI

open ByteMemory CountedLoop

/-! ## The legacy layout -/

/-- `struct unimpi_status_legacy`. -/
structure StatusLegacy where
  countLo : BitVec 32
  countHiAndCancelled : BitVec 32
  mpiSource : BitVec 32
  mpiTag : BitVec 32
  mpiError : BitVec 32

/-- The record at an address. -/
def loadStatus (m : Mem) (a : ℕ) : StatusLegacy where
  countLo := load32 m a
  countHiAndCancelled := load32 m (a + 4)
  mpiSource := load32 m (a + 8)
  mpiTag := load32 m (a + 12)
  mpiError := load32 m (a + 16)

/-- `status_legacy_get_source`, for the value of `MPI_SUCCESS`. -/
def statusLegacyGetSource (success : Int) (status source : ℕ) (m : Mem) : Int × Mem :=
  (success, store32 m source (loadStatus m status).mpiSource)

/-- `status_legacy_get_tag`. -/
def statusLegacyGetTag (success : Int) (status tag : ℕ) (m : Mem) : Int × Mem :=
  (success, store32 m tag (loadStatus m status).mpiTag)

/-- `status_legacy_get_error`. -/
def statusLegacyGetError (success : Int) (status error : ℕ) (m : Mem) : Int × Mem :=
  (success, store32 m error (loadStatus m status).mpiError)

/-- Records with the same twenty bytes are the same. -/
theorem loadStatus_congr {m m' : Mem} {a a' : ℕ} (h : ∀ k < 20, m (a + k) = m' (a' + k)) :
    loadStatus m a = loadStatus m' a' := by
  have hword : ∀ o, o + 4 ≤ 20 → load32 m (a + o) = load32 m' (a' + o) := by
    intro o ho
    have hbyte : ∀ k < 4, m (a + o + k) = m' (a' + o + k) := by
      intro k hk
      have := h (o + k) (by omega)
      rwa [← Nat.add_assoc, ← Nat.add_assoc] at this
    unfold load32
    rw [hbyte 3 (by omega), hbyte 2 (by omega), hbyte 1 (by omega)]
    congr 1
    exact hbyte 0 (by omega)
  simp only [loadStatus, hword 4 (by omega), hword 8 (by omega), hword 12 (by omega),
    hword 16 (by omega)]
  congr 1
  exact hword 0 (by omega)

/-! ## The backward scan -/

/-- The scan has moved the records from `i` on: their slots hold them, and no byte below slot `i`
or beyond the array has changed. -/
structure Spread (statuses n : ℕ) (m : Mem) (i : ℕ) (t : Mem) : Prop where
  moved : ∀ j k, i ≤ j → j < n → k < 20 → t (statuses + 24 * j + k) = m (statuses + 20 * j + k)
  kept : ∀ x, x < statuses + 24 * i ∨ statuses + 24 * n ≤ x → t x = m x

theorem Spread.refl (statuses n : ℕ) (m : Mem) : Spread statuses n m n m :=
  ⟨fun j k hj hn _ => by omega, fun _ _ => rfl⟩

theorem Spread.pred {statuses n i : ℕ} {m t : Mem} (hi : i < n)
    (h : Spread statuses n m (i + 1) t) :
    Spread statuses n m i (copy t (statuses + 24 * i) (statuses + 20 * i) 20) := by
  refine ⟨fun j k hj hn hk => ?_, fun x hx => ?_⟩
  · rcases Nat.eq_or_lt_of_le hj with rfl | hlt
    · -- record `i` ends below slot `i + 1`, so nothing has been written to it yet
      have hrecord : t (statuses + 20 * i + k) = m (statuses + 20 * i + k) :=
        h.kept _ (Or.inl (by omega))
      unfold copy
      rw [if_pos (by omega), ← hrecord, Nat.add_sub_cancel_left]
    · rw [copy_apply_of_notMem t (by omega)]
      exact h.moved j k hlt hn hk
  · rw [copy_apply_of_notMem t (by omega)]
    exact h.kept x (by omega)

theorem spread_statusesExpandInplace (statuses : ℕ) (n : Int) (m : Mem) :
    Spread statuses n.toNat m 0 (statusesExpandInplace statuses n m) :=
  down_invariant (P := Spread statuses n.toNat m) _ m (.refl _ _ _) fun _ _ hi ht => ht.pred hi

/-- Slot `i` holds record `i`. -/
theorem loadStatus_statusesExpandInplace (statuses : ℕ) (n : Int) (m : Mem) {i : ℕ}
    (hi : i < n.toNat) :
    loadStatus (statusesExpandInplace statuses n m) (statuses + 24 * i) =
      loadStatus m (statuses + 20 * i) :=
  loadStatus_congr fun k hk =>
    (spread_statusesExpandInplace statuses n m).moved i k (Nat.zero_le i) hi hk

/-- A reader succeeds and leaves `v` in its output argument. -/
def Yields (success : Int) (out : ℕ) (v : BitVec 32) (read : Int × Mem) : Prop :=
  read.1 = success ∧ load32 read.2 out = v

theorem yields_store32 (success : Int) (out : ℕ) (v : BitVec 32) (m : Mem) :
    Yields success out v (success, store32 m out v) :=
  ⟨rfl, load32_store32_self m out v⟩

/-- For every count and contents, the first twenty bytes of each slot are its packed record, the
readers find the fields the backend reported, and nothing at or beyond the last slot's end
changes. -/
theorem statusesExpandInplace_record (success : Int) (statuses : ℕ) (n : Int) (m : Mem) :
    (∀ i < n.toNat, ∀ k < 20,
      statusesExpandInplace statuses n m (statuses + 24 * i + k) = m (statuses + 20 * i + k)) ∧
    (∀ i < n.toNat, ∀ out,
      Yields success out (loadStatus m (statuses + 20 * i)).mpiSource
        (statusLegacyGetSource success (statuses + 24 * i) out
          (statusesExpandInplace statuses n m)) ∧
      Yields success out (loadStatus m (statuses + 20 * i)).mpiTag
        (statusLegacyGetTag success (statuses + 24 * i) out
          (statusesExpandInplace statuses n m)) ∧
      Yields success out (loadStatus m (statuses + 20 * i)).mpiError
        (statusLegacyGetError success (statuses + 24 * i) out
          (statusesExpandInplace statuses n m))) ∧
    ∀ x, statuses + 24 * n.toNat ≤ x → statusesExpandInplace statuses n m x = m x := by
  have hspread := spread_statusesExpandInplace statuses n m
  refine ⟨fun i hi k hk => hspread.moved i k (Nat.zero_le i) hi hk, fun i hi out => ?_,
    fun x hx => hspread.kept x (Or.inr hx)⟩
  rw [← loadStatus_statusesExpandInplace statuses n m hi]
  exact ⟨yields_store32 .., yields_store32 .., yields_store32 ..⟩

end UniMPI
