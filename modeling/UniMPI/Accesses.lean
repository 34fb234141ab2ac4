import UniMPI.Lib.AccessLog
import UniMPI.StatusOffsets

/-!
# What the adapters access

The scans of the adapters with every access logged under the argument it is made
through, and the calls over one handle array built from them. Forgetting the log
gives the adapters back (`ArrayCall.mem_runLogged`), so that the log of a call
says which bytes the adapter of the source reads and writes.

The two scans of `n` handles load and store the elements `0` to `n - 1` and no byte
beyond (`ScanAccess.within`), and a scan of `n` statuses makes one `memcpy` for each
of the slots `0` to `n - 1`. The calls that spread statuses reach their status array
through these copies alone (`ArrayCall.statuses_mem_runLogged`).
-/

namespace UniMPI

open ByteMemory CountedLoop

variable {π : Type*}

/-! ## The scans -/

/-- `compressInplace` with its accesses. -/
def compressInplaceLogged (p : π) (base : ℕ) (n : Int) (s : Logged π) : Logged π :=
  up (fun i s =>
    let (h, s) := s.load64 p (base + 8 * i)
    s.store32 p (base + 4 * i) ((h &&& 0xFFFFFFFF#64).setWidth 32)) 1 (n - 1).toNat s

/-- `expandInplace` with its accesses. -/
def expandInplaceLogged (p : π) (base : ℕ) (n : Int) (s : Logged π) : Logged π :=
  down (fun i s =>
    let (v, s) := s.load32 p (base + 4 * i)
    s.store64 p (base + 8 * i) (v.signExtend 64)) n.toNat s

/-- `statusesExpandInplace` with its accesses. -/
def statusesExpandInplaceLogged (p : π) (statuses : ℕ) (n : Int) (s : Logged π) : Logged π :=
  down (fun i s => s.memcpy p (statuses + 24 * i) (statuses + 20 * i) 20) n.toNat s

section
variable (p : π) (base : ℕ) (n : Int) (s : Logged π)

@[simp] theorem mem_compressInplaceLogged :
    (compressInplaceLogged p base n s).mem = compressInplace base n s.mem :=
  Logged.mem_up (fun _ _ => rfl) ..

@[simp] theorem mem_expandInplaceLogged :
    (expandInplaceLogged p base n s).mem = expandInplace base n s.mem :=
  Logged.mem_down (fun _ _ => rfl) ..

@[simp] theorem mem_statusesExpandInplaceLogged :
    (statusesExpandInplaceLogged p base n s).mem = statusesExpandInplace base n s.mem :=
  Logged.mem_down (fun _ _ => rfl) ..

theorem mem_log_compressInplaceLogged {e : π × Access} :
    e ∈ (compressInplaceLogged p base n s).log ↔ e ∈ s.log ∨ ∃ i, 1 ≤ i ∧ i < n.toNat ∧
      (e = (p, .load (base + 8 * i) 8) ∨ e = (p, .store (base + 4 * i) 4)) := by
  have hround : ∀ i, i < 1 + (n - 1).toNat ∧ 1 ≤ i ↔ i < n.toNat ∧ 1 ≤ i := by omega
  unfold compressInplaceLogged
  rw [Logged.mem_log_up (fun i =>
    [(p, .load (base + 8 * i) 8), (p, .store (base + 4 * i) 4)])]
  · refine or_congr_right (exists_congr fun i => ?_)
    have := hround i
    simp only [List.mem_cons, List.not_mem_nil, or_false]
    tauto
  · intro i s
    simp [Logged.load64, Logged.store32]

theorem mem_log_expandInplaceLogged {e : π × Access} :
    e ∈ (expandInplaceLogged p base n s).log ↔ e ∈ s.log ∨ ∃ i < n.toNat,
      (e = (p, .load (base + 4 * i) 4) ∨ e = (p, .store (base + 8 * i) 8)) := by
  unfold expandInplaceLogged
  rw [Logged.mem_log_down (fun i =>
    [(p, .load (base + 4 * i) 4), (p, .store (base + 8 * i) 8)])]
  · simp only [List.mem_cons, List.not_mem_nil, or_false]
  · intro i s
    simp [Logged.load32, Logged.store64]

theorem mem_log_statusesExpandInplaceLogged {e : π × Access} :
    e ∈ (statusesExpandInplaceLogged p base n s).log ↔ e ∈ s.log ∨ ∃ i < n.toNat,
      e = (p, .copy (base + 24 * i) (base + 20 * i) 20) := by
  unfold statusesExpandInplaceLogged
  rw [Logged.mem_log_down (fun i => [(p, .copy (base + 24 * i) (base + 20 * i) 20)])]
  · simp only [List.mem_singleton]
  · intro i s
    rfl

end

/-! ## Narrowing and widening an array -/

/-- An access of the two scans of an array of `n` handles at `base`. -/
def ScanAccess (base n : ℕ) (e : Access) : Prop :=
  (∃ i, 1 ≤ i ∧ i < n ∧ (e = .load (base + 8 * i) 8 ∨ e = .store (base + 4 * i) 4)) ∨
    ∃ i < n, (e = .load (base + 4 * i) 4 ∨ e = .store (base + 8 * i) 8)

section
variable {base n i : ℕ} {e : Access}

theorem scanAccess_narrow_iff (hi : 1 ≤ i) :
    ScanAccess base n (.store (base + 4 * i) 4) ↔ i < n := by
  simp [ScanAccess, hi]

theorem scanAccess_widen_iff : ScanAccess base n (.store (base + 8 * i) 8) ↔ i < n := by
  simp [ScanAccess]

/-- The scans stay in the array. -/
theorem ScanAccess.within (h : ScanAccess base n e) : e.Within base (base + 8 * n) := by
  intro x hx
  rcases h with ⟨i, -, hi, rfl | rfl⟩ | ⟨i, hi, rfl | rfl⟩ <;>
    simp only [Access.Touches] at hx <;> omega

/-- They access nothing only when the array is empty. -/
theorem forall_not_scanAccess_iff : (∀ e, ¬ScanAccess base n e) ↔ n = 0 := by
  refine ⟨fun h => ?_, ?_⟩
  · by_contra hn
    exact h _ (Or.inr ⟨0, by omega, Or.inl rfl⟩)
  · rintro rfl e (⟨i, -, hi, -⟩ | ⟨i, hi, -⟩) <;> omega

end

/-! ## The calls over one array -/

/-- The arguments through which a call over one array reaches memory. -/
inductive ArrayArg
  | array
  | outcount
  | statuses
deriving DecidableEq

namespace ArrayCall

/-- `*outcount` is read only for a real status array. -/
def materializeLogged (ignore : ℕ) (call : ArrayCall) (s : Logged ArrayArg) : Logged ArrayArg :=
  match call.statuses with
  | none => s
  | some (statuses, n) =>
    if statusesWritable ignore statuses then
      match n with
      | .given n => statusesExpandInplaceLogged .statuses statuses n s
      | .outcount a =>
        let (n, s) := s.load32 .outcount a
        statusesExpandInplaceLogged .statuses statuses n.toInt s
    else s

/-- The call with its accesses. -/
def runLogged (ignore : ℕ) (native : ArrayCall → Mem → Int × Mem) (call : ArrayCall)
    (s : Logged ArrayArg) : Int × Logged ArrayArg :=
  let s := compressInplaceLogged .array call.array call.count s
  let (ret, s) := s.call (native call)
  let s := expandInplaceLogged .array call.array call.count s
  (ret, call.materializeLogged ignore s)

theorem mem_materializeLogged (ignore : ℕ) (call : ArrayCall) (s : Logged ArrayArg) :
    (call.materializeLogged ignore s).mem = call.materialize ignore s.mem := by
  unfold materializeLogged materialize expandStatuses
  split
  · simp only [*]
  · next statuses n hs =>
    rw [hs]
    dsimp only
    split_ifs
    · cases n <;> simp only [StatusCount.value, Logged.load32, mem_statusesExpandInplaceLogged]
    · rfl

/-- Forgetting the log gives the adapter. -/
theorem mem_runLogged (ignore : ℕ) (native : ArrayCall → Mem → Int × Mem) (call : ArrayCall)
    (s : Logged ArrayArg) :
    ((call.runLogged ignore native s).1, (call.runLogged ignore native s).2.mem) =
      call.run ignore native s.mem := by
  rw [run_eq]
  simp [runLogged, Logged.call, mem_materializeLogged]

/-- Without statuses the array is reached through the two scans alone. -/
theorem array_mem_runLogged (call : ArrayCall) (h : call.statuses = none) (ignore : ℕ)
    (native : ArrayCall → Mem → Int × Mem) (m : Mem) (e : Access) :
    (ArrayArg.array, e) ∈ (call.runLogged ignore native (.ofMem m)).2.log ↔
      ScanAccess call.array call.count.toNat e := by
  simp [runLogged, materializeLogged, h, mem_log_expandInplaceLogged,
    mem_log_compressInplaceLogged, Logged.call, Logged.ofMem, ScanAccess]

/-- The status array is reached through the copies of the spread slots alone. -/
theorem statuses_mem_runLogged {ignore : ℕ} {native : ArrayCall → Mem → Int × Mem}
    {call : ArrayCall} {m : Mem} {statuses : ℕ} {n : StatusCount}
    (h : call.statuses = some (statuses, n)) {e : Access} :
    (ArrayArg.statuses, e) ∈ (call.runLogged ignore native (.ofMem m)).2.log ↔
      statusesWritable ignore statuses ∧ ∃ i < (n.value (call.beforeStatuses native m)).toNat,
        e = .copy (statuses + 24 * i) (statuses + 20 * i) 20 := by
  set scanned := expandInplaceLogged ArrayArg.array call.array call.count
    ((compressInplaceLogged ArrayArg.array call.array call.count (.ofMem m)).call
      (native call)).2 with hsc
  have hmem : scanned.mem = call.beforeStatuses native m := by
    simp [hsc, beforeStatuses, left, Logged.call, Logged.ofMem]
  have hscan : (ArrayArg.statuses, e) ∉ scanned.log := by
    rw [hsc, mem_log_expandInplaceLogged]
    simp [Logged.call, mem_log_compressInplaceLogged, Logged.ofMem]
  have hrun : (call.runLogged ignore native (.ofMem m)).2 =
      call.materializeLogged ignore scanned := rfl
  rw [hrun, ← hmem]
  simp only [materializeLogged, h]
  split_ifs with hw
  · cases n with
    | given n =>
      simp [mem_log_statusesExpandInplaceLogged, hscan, hw, StatusCount.value]
    | outcount a =>
      simp [mem_log_statusesExpandInplaceLogged, hscan, hw, StatusCount.value, Logged.load32]
  · simp [hscan, hw]

end ArrayCall

end UniMPI
