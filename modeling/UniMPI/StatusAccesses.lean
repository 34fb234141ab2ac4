import UniMPI.Accesses
import UniMPI.ArraySimulation
import UniMPI.StatusRecords

/-!
# The status array

What `statuses_expand_inplace` and the four calls that use it do to the caller's
status array. Record `i` moves by `4 * i` bytes, so each of the `memcpy` calls for the
slots `0` to `4` gets overlapping regions (`memcpy_disjoint_iff`). The calls spread the
array whatever the backend returned: a backend that wrote no status still has the
caller's bytes moved (`statusesUntouched_iff`), and after an error the number of slots
is whatever `*outcount` was on entry (`staysInStatuses_iff`). Both hold of the calls with
the `int` products of the source, and so for at most `89478486` spread statuses.
-/

namespace UniMPI

open ByteMemory CountedLoop

/-! ## The copies -/

/-- The precondition of `memcpy`: its two regions are disjoint. -/
def DisjointCopies {π : Type*} (log : List (π × Access)) : Prop :=
  ∀ p dst src n, (p, Access.copy dst src n) ∈ log → dst + n ≤ src ∨ src + n ≤ dst

/-- The two regions of the copy at index `i` lie `4 * i` bytes apart. -/
theorem slot_disjoint_iff (statuses i : ℕ) :
    (statuses + 24 * i + 20 ≤ statuses + 20 * i ∨ statuses + 20 * i + 20 ≤ statuses + 24 * i) ↔
      5 ≤ i := by
  omega

/-- The scan calls `memcpy` for every slot. -/
theorem copy_mem_log (statuses : ℕ) (n : Int) (m : Mem) {i : ℕ} (hi : i < n.toNat) :
    (ArrayArg.statuses, Access.copy (statuses + 24 * i) (statuses + 20 * i) 20) ∈
      (statusesExpandInplaceLogged ArrayArg.statuses statuses n (.ofMem m)).log := by
  rw [mem_log_statusesExpandInplaceLogged]
  exact Or.inr ⟨i, hi, rfl⟩

/-- Every non-empty scan ends with the copy of record `0` onto itself. -/
theorem not_disjointCopies_of_pos (statuses : ℕ) {n : Int} (hn : 0 < n) (m : Mem) :
    ¬DisjointCopies (statusesExpandInplaceLogged ArrayArg.statuses statuses n (.ofMem m)).log := by
  intro h
  have h0 := (slot_disjoint_iff statuses 0).1 (h _ _ _ _ (copy_mem_log statuses n m (by omega)))
  exact absurd h0 (by decide)

/-- The scan meets the precondition of `memcpy` exactly if it makes no call. At index `i` it makes
one, with disjoint regions exactly from index `5` on. -/
theorem memcpy_disjoint_iff (statuses : ℕ) (n : Int) (m : Mem) :
    (DisjointCopies (statusesExpandInplaceLogged ArrayArg.statuses statuses n (.ofMem m)).log ↔
      n ≤ 0) ∧
    ∀ i < n.toNat,
      (ArrayArg.statuses, Access.copy (statuses + 24 * i) (statuses + 20 * i) 20) ∈
        (statusesExpandInplaceLogged ArrayArg.statuses statuses n (.ofMem m)).log ∧
      ((statuses + 24 * i + 20 ≤ statuses + 20 * i ∨
        statuses + 20 * i + 20 ≤ statuses + 24 * i) ↔ 5 ≤ i) := by
  refine ⟨⟨fun h => ?_, fun hn => ?_⟩, fun i hi =>
    ⟨copy_mem_log statuses n m hi, slot_disjoint_iff statuses i⟩⟩
  · by_contra hn
    exact not_disjointCopies_of_pos statuses (by omega) m h
  · intro p dst src k he
    rw [mem_log_statusesExpandInplaceLogged] at he
    rcases he with he | ⟨i, hi, -⟩
    · simp [Logged.ofMem] at he
    · omega

/-- One status: `memcpy` is called with the same source and destination. -/
theorem not_memcpy_disjoint_one :
    ¬DisjointCopies (statusesExpandInplaceLogged ArrayArg.statuses 0x100 1
      (.ofMem ArrayCall.countingMem)).log :=
  not_disjointCopies_of_pos 0x100 (by decide) ArrayCall.countingMem

/-! ## Statuses the backend did not write -/

namespace ArrayCall

/-- The arguments of a call that spreads `n` statuses are apart: the status array and `*outcount`
from the request array. -/
structure ArgsApart (call : ArrayCall) (statuses : ℕ) (n : StatusCount) : Prop where
  statuses : statuses + 24 * call.count.toNat ≤ call.array ∨
    call.array + 8 * call.count.toNat ≤ statuses
  outcount : ∀ a, n = .outcount a → a + 4 ≤ call.array ∨ call.array + 8 * call.count.toNat ≤ a

/-- The backend leaves the `count` statuses of the caller as it finds them. -/
def WritesNoStatus (native : ArrayCall → Mem → Int × Mem) (call : ArrayCall) (statuses : ℕ)
    (m : Mem) : Prop :=
  AgreeOn statuses (statuses + 24 * call.count.toNat) (call.left native m)
    (compressInplace call.array call.count m)

/-- The call returns, and the caller's `count` statuses are byte for byte what they were before. -/
def StatusesUntouched (memcpy : Mem → ℕ → ℕ → ℕ → Mem) (ignore : ℕ)
    (native : ArrayCall → Mem → Int × Mem) (call : ArrayCall) (statuses : ℕ) (m : Mem) : Prop :=
  ∃ r, call.runInt memcpy ignore native m = some r ∧
    AgreeOn statuses (statuses + 24 * call.count.toNat) r.2 m

variable {memcpy : Mem → ℕ → ℕ → ℕ → Mem} {ignore statuses : ℕ} {n : StatusCount}
  {native : ArrayCall → Mem → Int × Mem} {call : ArrayCall} {m : Mem}

/-- Expanding the requests does not change the number of statuses. -/
theorem ArgsApart.value_eq (h : call.ArgsApart statuses n) :
    n.value (call.beforeStatuses native m) = n.value (call.left native m) := by
  cases n with
  | given n => rfl
  | outcount a =>
    have hcell : AgreeOn a (a + 4) (call.beforeStatuses native m) (call.left native m) := by
      intro x hlo hhi
      have := h.outcount a rfl
      exact expandInplace_apply_of_notMem _ _ _ (by omega)
    simp only [StatusCount.value, hcell.load32_eq le_rfl le_rfl]

/-- Where the backend wrote no status, the array still holds the caller's when it is spread. -/
theorem ArgsApart.agreeOn (h : call.ArgsApart statuses n)
    (hnone : call.WritesNoStatus native statuses m) :
    AgreeOn statuses (statuses + 24 * call.count.toNat) (call.beforeStatuses native m) m := by
  intro x hlo hhi
  have hapart := h.statuses
  rw [beforeStatuses, expandInplace_apply_of_notMem _ _ _ (by omega)]
  exact (hnone x hlo hhi).trans (compressInplace_apply_of_notMem _ _ m (by omega))

/-- The call returns if it spreads at most `89478486` statuses. -/
theorem ArgsApart.spreadsInRange_iff (h : call.ArgsApart statuses n)
    (hs : call.statuses = some (statuses, n)) :
    call.SpreadsInRange ignore (call.beforeStatuses native m) ↔
      (statusesWritable ignore statuses → n.value (call.left native m) ≤ 89478486) := by
  unfold SpreadsInRange
  rw [hs]
  constructor
  · intro hrange hw
    rw [← h.value_eq]
    exact hrange statuses n rfl hw
  · rintro hrange _ _ ⟨⟩ hw
    rw [h.value_eq]
    exact hrange hw

/-- For each of the four calls and every backend outcome that writes no status, the caller's array
comes back untouched exactly if it is not spread, or it is within reach of the `int` products and
every spread slot already holds the bytes at its packed place. -/
theorem statusesUntouched_iff (hcopy : CopiesInPieces memcpy)
    (hs : call.statuses = some (statuses, n)) (hapart : call.ArgsApart statuses n)
    (hnone : call.WritesNoStatus native statuses m) :
    call.StatusesUntouched memcpy ignore native statuses m ↔
      (statusesWritable ignore statuses →
        n.value (call.left native m) ≤ 89478486 ∧
        ∀ i < call.count.toNat, i < (n.value (call.left native m)).toNat → ∀ k < 20,
          m (statuses + 24 * i + k) = m (statuses + 20 * i + k)) := by
  have hold := hapart.agreeOn hnone
  have hrange : call.SpreadsInRange ignore (call.beforeStatuses native m) ↔
      (statusesWritable ignore statuses → n.value (call.left native m) ≤ 89478486) :=
    hapart.spreadsInRange_iff hs
  set N := n.value (call.left native m) with hN
  by_cases hw : statusesWritable ignore statuses
  · have hspread : N ≤ 89478486 → call.runInt memcpy ignore native m =
        some (call.ret native m, spreadStatuses memcpy statuses N (call.beforeStatuses native m)) :=
      fun hle => by
        rw [runInt, materializeInt_some hs, if_pos hw, hapart.value_eq, ← hN,
          statusesExpandInplaceInt_eq, if_pos hle]
        rfl
    constructor
    · rintro ⟨r, hrun, huntouched⟩ -
      have hle := hrange.1 (isSome_runInt_iff.1 (Option.isSome_of_eq_some hrun)) hw
      rw [hspread hle] at hrun
      rw [← Option.some.inj hrun] at huntouched
      exact ⟨hle, (spreadStatuses_kept_iff hcopy hold).1 huntouched⟩
    · intro h
      obtain ⟨hle, hplace⟩ := h hw
      exact ⟨_, hspread hle, (spreadStatuses_kept_iff hcopy hold).2 hplace⟩
  · refine ⟨fun _ hw' => absurd hw' hw, fun _ =>
      ⟨(call.ret native m, call.beforeStatuses native m), ?_, hold⟩⟩
    rw [runInt, materializeInt_some hs, if_neg hw]
    rfl

/-! ## A pending `testall` -/

/-- `testall` of two requests at `0`, its flag at `0x80` and its statuses at `0x100`. -/
def testallTwo : ArrayCall :=
  .testall 2 0 0x80 0x100

/-- A backend that finds the requests pending and stores `flag = 0`. -/
def pending (_ : ArrayCall) (m : Mem) : Int × Mem :=
  (0, store32 m 0x80 0#32)

theorem argsApart_testallTwo : testallTwo.ArgsApart 0x100 (.given 2) where
  statuses := by decide
  outcount := by rintro a ⟨⟩

theorem writesNoStatus_pending (m : Mem) : testallTwo.WritesNoStatus pending 0x100 m := by
  intro x hlo _
  exact store32_apply_of_notMem _ _ (by omega)

theorem statusesUntouched_iff_pending :
    testallTwo.StatusesUntouched copy 1 pending 0x100 countingMem ↔
      (statusesWritable 1 0x100 →
        (StatusCount.given 2).value (testallTwo.left pending countingMem) ≤ 89478486 ∧
        ∀ i < testallTwo.count.toNat,
          i < ((StatusCount.given 2).value (testallTwo.left pending countingMem)).toNat →
            ∀ k < 20, countingMem (0x100 + 24 * i + k) = countingMem (0x100 + 20 * i + k)) :=
  statusesUntouched_iff overlapSafe_copy.copiesInPieces rfl argsApart_testallTwo
    (writesNoStatus_pending countingMem)

/-- Polling moves the second status although nothing completed. -/
theorem not_statusesUntouched_pending :
    testallTwo.statuses = some (0x100, .given 2) ∧ testallTwo.ArgsApart 0x100 (.given 2) ∧
      testallTwo.WritesNoStatus pending 0x100 countingMem ∧
      ¬testallTwo.StatusesUntouched copy 1 pending 0x100 countingMem := by
  refine ⟨rfl, argsApart_testallTwo, writesNoStatus_pending countingMem, ?_⟩
  rintro ⟨r, hrun, huntouched⟩
  obtain ⟨-, rfl⟩ := (runInt_eq_some_iff overlapSafe_copy).1 hrun
  have hslot := huntouched 0x118 (by decide) (by decide)
  revert hslot
  decide

/-! ## The slots a call reaches -/

/-- The value of `MPI_UNDEFINED`. -/
def mpiUndefined : Int := -32766

/-- What MPI lets the backend do in `waitsome` and `testsome`: succeed and report a number of
completed requests or `MPI_UNDEFINED`, or fail and leave `*outcount` unwritten. -/
def ConformsSome (success : Int) (native : ArrayCall → Mem → Int × Mem) (call : ArrayCall)
    (outcount : ℕ) (m : Mem) : Prop :=
  if call.ret native m = success then
    let v := (load32 (call.left native m) outcount).toInt
    (0 ≤ v ∧ v ≤ call.count) ∨ v = mpiUndefined
  else
    AgreeOn outcount (outcount + 4) (call.left native m) (compressInplace call.array call.count m)

/-- The call returns, and every access to the status array stays in the first `count` slots. -/
def StaysInStatuses (ignore : ℕ) (native : ArrayCall → Mem → Int × Mem) (call : ArrayCall)
    (statuses : ℕ) (m : Mem) : Prop :=
  (call.runInt copy ignore native m).isSome ∧
    ∀ e, (ArrayArg.statuses, e) ∈ (call.runLogged ignore native (.ofMem m)).2.log →
      e.Within statuses (statuses + 24 * call.count.toNat)

/-- The call stays in the slots exactly if it spreads no more than `count` of them, and no more than
the `int` products reach. -/
theorem staysInStatuses_iff_value (hs : call.statuses = some (statuses, n))
    (hapart : call.ArgsApart statuses n) :
    call.StaysInStatuses ignore native statuses m ↔
      (statusesWritable ignore statuses → n.value (call.left native m) ≤ 89478486 ∧
        n.value (call.left native m) ≤ call.count.toNat) := by
  unfold StaysInStatuses
  simp only [statuses_mem_runLogged hs, hapart.value_eq]
  rw [isSome_runInt_iff, hapart.spreadsInRange_iff hs, imp_and]
  set N := n.value (call.left native m)
  refine and_congr_right fun _ => ⟨fun h hw => ?_, ?_⟩
  · by_contra hN
    -- slot `count` is the first one beyond the array
    have hlast := h _ ⟨hw, call.count.toNat, by omega, rfl⟩
    rw [Access.within_copy_iff (by decide)] at hlast
    omega
  · rintro h e ⟨hw, i, hi, rfl⟩
    have hN := h hw
    rw [Access.within_copy_iff (by decide)]
    omega

/-- After an error the backend leaves the caller's `*outcount`. -/
theorem ConformsSome.entry {success : Int} {a : ℕ} (h : call.ConformsSome success native a m)
    (hapart : call.ArgsApart statuses (.outcount a)) (hret : call.ret native m ≠ success) :
    load32 (call.left native m) a = load32 m a := by
  unfold ConformsSome at h
  rw [if_neg hret] at h
  rw [h.load32_eq le_rfl le_rfl]
  have hcell : AgreeOn a (a + 4) (compressInplace call.array call.count m) m := by
    intro x hlo hhi
    have := hapart.outcount a rfl
    exact compressInplace_apply_of_notMem _ _ m (by omega)
  exact hcell.load32_eq le_rfl le_rfl

/-- For every `incount`, every value of `*outcount` on entry and every conforming outcome, the call
stays in the first `incount` slots exactly if the array is not a real one, or the `int` products
reach as far as `*outcount` and the backend succeeds or `*outcount` was at most `incount` on
entry. -/
theorem staysInStatuses_iff {success : Int} {a : ℕ}
    (hs : call.statuses = some (statuses, .outcount a))
    (hapart : call.ArgsApart statuses (.outcount a))
    (hconf : call.ConformsSome success native a m) :
    call.StaysInStatuses ignore native statuses m ↔
      (statusesWritable ignore statuses →
        (load32 (call.left native m) a).toInt ≤ 89478486 ∧
          (call.ret native m = success ∨ (load32 m a).toInt ≤ call.count.toNat)) := by
  rw [staysInStatuses_iff_value hs hapart]
  refine imp_congr_right fun _ => and_congr_right fun _ => ?_
  by_cases hret : call.ret native m = success
  · have hv := hconf
    unfold ConformsSome mpiUndefined at hv
    rw [if_pos hret] at hv
    simp only [hret, true_or, iff_true, StatusCount.value]
    omega
  · simp only [hret, false_or, StatusCount.value, hconf.entry hapart hret]

/-- `testsome` of one request at `0`, `*outcount` at `0x80`, its statuses at `0x100`. -/
def testsomeOne : ArrayCall :=
  .testsome 1 0 0x80 0x90 0x100

/-- The caller's `*outcount` still holds `7`. -/
def staleOutcount : Mem :=
  store32 countingMem 0x80 7#32

theorem argsApart_testsomeOne : testsomeOne.ArgsApart 0x100 (.outcount 0x80) where
  statuses := by decide
  outcount := by
    rintro a ⟨⟩
    decide

theorem conformsSome_refuse (m : Mem) : testsomeOne.ConformsSome 0 refuse 0x80 m := by
  unfold ConformsSome
  rw [if_neg (show ret refuse testsomeOne m ≠ 0 from (by decide : (19 : Int) ≠ 0))]
  exact fun _ _ _ => rfl

theorem staysInStatuses_iff_refuse :
    testsomeOne.StaysInStatuses 1 refuse 0x100 staleOutcount ↔
      (statusesWritable 1 0x100 →
        (load32 (testsomeOne.left refuse staleOutcount) 0x80).toInt ≤ 89478486 ∧
          (testsomeOne.ret refuse staleOutcount = 0 ∨
            (load32 staleOutcount 0x80).toInt ≤ testsomeOne.count.toNat)) :=
  staysInStatuses_iff rfl argsApart_testsomeOne (conformsSome_refuse staleOutcount)

/-- A refused `testsome` of one request spreads seven statuses. -/
theorem not_staysInStatuses_refuse :
    testsomeOne.statuses = some (0x100, .outcount 0x80) ∧
      testsomeOne.ArgsApart 0x100 (.outcount 0x80) ∧
      testsomeOne.ConformsSome 0 refuse 0x80 staleOutcount ∧
      ¬testsomeOne.StaysInStatuses 1 refuse 0x100 staleOutcount := by
  refine ⟨rfl, argsApart_testsomeOne, conformsSome_refuse staleOutcount, ?_⟩
  rw [staysInStatuses_iff_value rfl argsApart_testsomeOne]
  decide

end ArrayCall

end UniMPI
