import UniMPI.StatusOffsets

/-!
# Adapters as native calls

A backend that reads and writes only the first `n` int slots of the handle array
cannot tell an adapter from a caller that holds ints: it gets the native forms in
order, and the caller gets back its result and the sign extensions of the ints.
Everything else in memory should then be as it was.

The four calls that spread statuses do so after every native call, also one that
wrote no status. `simulates_iff` : a call simulates the native one exactly if it
spreads no real status array, or the array is within reach of the `int` products
and every slot to be filled holds its record already.
-/

namespace UniMPI

open ByteMemory

namespace ArrayCall

/-! ## Backends that touch nothing but the ints -/

/-- The backend reads and writes only the first `n` int slots at `base`. -/
structure TouchesOnlyInts (base n : ℕ) (native : Mem → Int × Mem) : Prop where
  writes : ∀ m x, x < base ∨ base + 4 * n ≤ x → (native m).2 x = m x
  reads : ∀ m m', AgreeOn base (base + 4 * n) m m' →
    (native m).1 = (native m').1 ∧ AgreeOn base (base + 4 * n) (native m).2 (native m').2

/-- The adapter simulates the native call: the backend is called on a memory whose ints are the
native forms of the handles, its result is returned, the handles end as the sign extensions of the
ints it left, and everything outside the array is unchanged. -/
def Simulates (memcpy : Mem → ℕ → ℕ → ℕ → Mem) (ignore : ℕ) (call : ArrayCall)
    (native : ArrayCall → Mem → Int × Mem) (m : Mem) : Prop :=
  ∃ r handed, call.runInt memcpy ignore native m = some r ∧
    ints handed call.array call.count.toNat =
      (handles m call.array call.count.toNat).map nativeForm ∧
    r.1 = (native call handed).1 ∧
    handles r.2 call.array call.count.toNat =
      (ints (native call handed).2 call.array call.count.toNat).map (BitVec.signExtend 64) ∧
    ∀ x, ¬call.Covers x → r.2 x = m x

variable {memcpy : Mem → ℕ → ℕ → ℕ → Mem} {ignore : ℕ} {native : ArrayCall → Mem → Int × Mem}
  {call : ArrayCall} {m : Mem} {r : Int × Mem}

/-- Such a backend changes nothing outside the handle array, and expanding the array neither. -/
theorem TouchesOnlyInts.beforeStatuses_eq
    (h : TouchesOnlyInts call.array call.count.toNat (native call)) (m : Mem) {x : ℕ}
    (hx : ¬call.Covers x) : call.beforeStatuses native m x = m x := by
  rw [beforeStatuses, expandInplace_of_not_covers _ hx, left,
    h.writes _ x (by unfold Covers at hx; omega), compressInplace_of_not_covers m hx]

/-! ## What a call returns -/

/-- The spread statuses of a call that returns. -/
theorem materialize_of_runInt (h : call.runInt memcpy ignore native m = some r) :
    r.1 = call.ret native m ∧
      call.materializeInt memcpy ignore (call.beforeStatuses native m) = some r.2 := by
  obtain ⟨after, hafter, rfl⟩ := Option.map_eq_some_iff.1 h
  exact ⟨rfl, hafter⟩

/-- Nothing changes outside a real status array when the statuses are spread. -/
theorem materializeInt_apply_of_notMem (hcopy : CopiesInPieces memcpy) {m' : Mem}
    (h : call.materializeInt memcpy ignore m = some m') {x : ℕ}
    (hx : ∀ statuses n, call.statuses = some (statuses, n) → statusesWritable ignore statuses →
      x < statuses ∨ statuses + 24 * (n.value m).toNat ≤ x) : m' x = m x := by
  cases hs : call.statuses with
  | none =>
    rw [materializeInt_none hs] at h
    rw [Option.some.inj h]
  | some p =>
    obtain ⟨statuses, n⟩ := p
    rw [materializeInt_some hs] at h
    split_ifs at h with hw
    · rw [statusesExpandInplaceInt_eq] at h
      split_ifs at h
      rw [← Option.some.inj h]
      have hout := hx statuses n hs hw
      exact (slotsFrom_spreadStatuses hcopy statuses _ m).rest x fun j _ hj => by omega
    · rw [Option.some.inj h]

/-- The array of a call that returns holds the sign extensions of the ints the backend left. -/
theorem handles_of_runInt (hcopy : CopiesInPieces memcpy)
    (hapart : call.StatusesApart ignore (call.beforeStatuses native m))
    (h : call.runInt memcpy ignore native m = some r) :
    handles r.2 call.array call.count.toNat =
      (ints (call.left native m) call.array call.count.toNat).map (BitVec.signExtend 64) := by
  have hafter := (materialize_of_runInt h).2
  have hagree : AgreeOn call.array (call.array + 8 * call.count.toNat) r.2
      (call.beforeStatuses native m) := fun x hlo hhi =>
    materializeInt_apply_of_notMem hcopy hafter fun statuses n hs hw => by
      have := (hapart statuses n hs hw).1
      omega
  unfold ints handles
  rw [List.map_map]
  refine List.map_congr_left fun i hi => ?_
  have hi := List.mem_range.1 hi
  exact (hagree.load64_eq (by omega) (by omega)).trans (load64_expandInplace _ _ _ hi)

/-! ## When a call simulates the native one -/

/-- A call that returns leaves the rest of memory exactly if the statuses it spreads are in place
already. -/
theorem rest_of_runInt_iff (hcopy : CopiesInPieces memcpy)
    (hnative : TouchesOnlyInts call.array call.count.toNat (native call))
    (hstatuses : call.StatusesApart ignore m)
    (h : call.runInt memcpy ignore native m = some r) :
    (∀ x, ¬call.Covers x → r.2 x = m x) ↔
      ∀ statuses n, call.statuses = some (statuses, n) → statusesWritable ignore statuses →
        ∀ i < (n.value m).toNat, ∀ k < 20,
          m (statuses + 24 * i + k) = m (statuses + 20 * i + k) := by
  have hbefore : ∀ x, ¬call.Covers x → call.beforeStatuses native m x = m x := fun x hx =>
    hnative.beforeStatuses_eq m hx
  have hafter := (materialize_of_runInt h).2
  cases hs : call.statuses with
  | none =>
    rw [materializeInt_none hs] at hafter
    rw [← Option.some.inj hafter]
    exact ⟨fun _ => nofun, fun _ => hbefore⟩
  | some p =>
    obtain ⟨statuses, n⟩ := p
    rw [materializeInt_some hs] at hafter
    split_ifs at hafter with hw
    · have hvalue := hstatuses.value_eq hbefore hs hw
      have hapart := (hstatuses statuses n hs hw).1
      rw [statusesExpandInplaceInt_eq] at hafter
      split_ifs at hafter
      rw [← Option.some.inj hafter, hvalue]
      have hold : AgreeOn statuses (statuses + 24 * (n.value m).toNat)
          (call.beforeStatuses native m) m :=
        fun x hlo hhi => hbefore x fun hx => by unfold Covers at hx; omega
      have hkept := spreadStatuses_kept_iff hcopy (n := n.value m) hold
      constructor
      · rintro hrest _ _ ⟨⟩ - i hi
        refine hkept.1 (fun x hlo hhi => hrest x fun hx => ?_) i hi hi
        unfold Covers at hx
        omega
      · intro hplace x hx
        by_cases hin : statuses ≤ x ∧ x < statuses + 24 * (n.value m).toNat
        · exact hkept.2 (fun i hi _ => hplace statuses n rfl hw i hi) x hin.1 hin.2
        · rw [← hbefore x hx]
          exact (slotsFrom_spreadStatuses hcopy statuses _ _).rest x fun j _ hj => by omega
    · rw [← Option.some.inj hafter]
      refine ⟨?_, fun _ => hbefore⟩
      rintro - _ _ ⟨⟩ hw'
      exact absurd hw' hw

/-- For every backend that touches nothing but the ints, each of the ten adapters simulates the
native call exactly if it spreads no real status array, or at most `89478486` statuses of which
every slot holds its record already. -/
theorem simulates_iff (hcopy : CopiesInPieces memcpy)
    (hnative : TouchesOnlyInts call.array call.count.toNat (native call))
    (hstatuses : call.StatusesApart ignore m) :
    Simulates memcpy ignore call native m ↔
      ∀ statuses n, call.statuses = some (statuses, n) → statusesWritable ignore statuses →
        n.value m ≤ 89478486 ∧ ∀ i < (n.value m).toNat, ∀ k < 20,
          m (statuses + 24 * i + k) = m (statuses + 20 * i + k) := by
  have hbefore : ∀ x, ¬call.Covers x → call.beforeStatuses native m x = m x := fun x hx =>
    hnative.beforeStatuses_eq m hx
  constructor
  · rintro ⟨r, handed, hrun, -, -, -, hrest⟩ statuses n hs hw
    have hrange := isSome_runInt_iff.1 (Option.isSome_of_eq_some hrun) statuses n hs hw
    rw [hstatuses.value_eq hbefore hs hw] at hrange
    exact ⟨hrange, (rest_of_runInt_iff hcopy hnative hstatuses hrun).1 hrest statuses n hs hw⟩
  · intro h
    have hrange : call.SpreadsInRange ignore (call.beforeStatuses native m) := by
      intro statuses n hs hw
      rw [hstatuses.value_eq hbefore hs hw]
      exact (h statuses n hs hw).1
    obtain ⟨r, hrun⟩ := Option.isSome_iff_exists.1 (isSome_runInt_iff.2 hrange)
    refine ⟨r, compressInplace call.array call.count m, hrun, call.ints_compressInplace m,
      (materialize_of_runInt hrun).1, handles_of_runInt hcopy (hstatuses.of_agree hbefore) hrun,
      (rest_of_runInt_iff hcopy hnative hstatuses hrun).2 fun statuses n hs hw => ?_⟩
    exact (h statuses n hs hw).2

/-! ## A completed and a refused call -/

/-- A backend that completes the first request and succeeds. -/
def completeFirst (call : ArrayCall) (m : Mem) : Int × Mem :=
  (0, store32 m call.array 0x2c000000#32)

theorem touchesOnlyInts_completeFirst (call : ArrayCall) {n : ℕ} (hn : 0 < n) :
    TouchesOnlyInts call.array n (completeFirst call) where
  writes m x hx := store32_apply_of_notMem m _ (by omega)
  reads m m' h := by
    refine ⟨rfl, fun x hlo hhi => ?_⟩
    simp only [completeFirst, store32, store]
    split_ifs
    · rfl
    · exact h x hlo hhi

/-- A backend that refuses the call and touches nothing. -/
def refuse (_ : ArrayCall) (m : Mem) : Int × Mem :=
  (19, m)

theorem touchesOnlyInts_refuse (call : ArrayCall) (base n : ℕ) :
    TouchesOnlyInts base n (refuse call) where
  writes _ _ _ := rfl
  reads _ _ h := ⟨rfl, h⟩

/-- `waitall` of two requests at `0` with a status array at `0x100`. -/
def waitallTwo : ArrayCall :=
  .waitall 2 0 0x100

/-- A memory in which every byte is the low byte of its address. -/
def countingMem : Mem :=
  fun x => BitVec.ofNat 8 x

theorem statusesApart_waitallTwo (m : Mem) : waitallTwo.StatusesApart 1 m := by
  rintro statuses n ⟨⟩ -
  refine ⟨?_, by rintro a ⟨⟩⟩
  simp only [StatusCount.value, waitallTwo, array, count]
  decide

theorem overlapSafe_copy : OverlapSafe copy := fun _ _ _ _ => rfl

/-- Over a status array whose bytes are all alike the spreading is not seen. -/
theorem simulates_iff_alike :
    Simulates copy 1 waitallTwo completeFirst (fun _ => 0xff#8) := by
  refine (simulates_iff overlapSafe_copy.copiesInPieces
    (touchesOnlyInts_completeFirst waitallTwo (by decide)) (statusesApart_waitallTwo _)).2 ?_
  rintro statuses n ⟨⟩ -
  exact ⟨by decide, fun _ _ _ _ => rfl⟩

/-- A refused `waitall` changes memory beyond its requests: the status array is spread although the
backend wrote nothing. -/
theorem not_simulates_refused_waitallTwo :
    TouchesOnlyInts waitallTwo.array waitallTwo.count.toNat (refuse waitallTwo) ∧
      waitallTwo.StatusesApart 1 countingMem ∧
      ¬Simulates copy 1 waitallTwo refuse countingMem := by
  refine ⟨touchesOnlyInts_refuse _ _ _, statusesApart_waitallTwo _, ?_⟩
  rintro ⟨r, handed, hrun, -, -, -, hrest⟩
  obtain ⟨-, rfl⟩ := (runInt_eq_some_iff overlapSafe_copy).1 hrun
  have hslot := hrest 0x118 (by unfold Covers waitallTwo array count; decide)
  revert hslot
  decide

end ArrayCall

end UniMPI
