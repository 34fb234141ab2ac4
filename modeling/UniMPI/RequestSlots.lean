import UniMPI.Lib.Runs
import UniMPI.StatusOffsets

/-!
# Request slots between scalar and array calls

A scalar call of an integer-handle backend (`isend`, `wait`, `test`,
`request_free`, …) is bound without an adapter: it reads and writes the low four
bytes of the caller's 8-byte slot and leaves the high four as they were. The
array adapters sign-extend. `step` is one call of either kind on a bank of slots; the
statuses an array call spreads are within reach of the source's `int` products
(`runInt_of_wellFormed`).

A slot is `Canonical` when a stored null request makes it equal to
`UNIMPI_REQUEST_NULL`. The high word of a slot is the sign word of what the last
array call over it left (`HighWords`), and no scalar call repairs it, so a run
keeps all slots canonical exactly when no scalar call stores the null request in
a slot that an array call left with a negative handle
(`canonical_iff_nullStores`).
-/

namespace UniMPI

open ByteMemory Runs

/-- `UNIMPI_REQUEST_NULL` as the integer-handle backends set it. -/
def requestNull : BitVec 64 :=
  0x2c000000#64

/-- The null request of the backends, an `int`. -/
def nativeRequestNull : BitVec 32 :=
  0x2c000000#32

/-- The caller's request slots: `n` of them from `base` on. -/
structure Slots where
  base : ℕ
  n : ℕ

/-- A call on the slots. The native side of a scalar call gets the low word of its slot and may
store another one; that of an array call is arbitrary code over memory. -/
inductive RequestOp
  | scalar (i : ℕ) (native : BitVec 32 → Option (BitVec 32))
  | array (first : ℕ) (call : ArrayCall) (native : ArrayCall → Mem → Int × Mem)

/-- Memory, and for each slot the handle the last array call over it left there. -/
structure SlotState where
  mem : Mem
  lastLeft : ℕ → Option (BitVec 32)

namespace Slots

variable (s : Slots) (ignore : ℕ)

def slot (i : ℕ) : ℕ :=
  s.base + 8 * i

/-- The backend's part of a scalar call. -/
def scalarCall (i : ℕ) (native : BitVec 32 → Option (BitVec 32)) (m : Mem) : Mem :=
  match native (load32 m (s.slot i)) with
  | some v => store32 m (s.slot i) v
  | none => m

/-- One call. -/
def step (t : SlotState) : RequestOp → SlotState
  | .scalar i native => { t with mem := s.scalarCall i native t.mem }
  | .array first call native =>
    { mem := (call.run ignore native t.mem).2
      lastLeft := fun i =>
        if first ≤ i ∧ i < first + call.count.toNat then
          some (load32 (call.left native t.mem) (call.array + 4 * (i - first)))
        else t.lastLeft i }

/-- The array calls over requests; the others take datatypes and infos. -/
def IsRequestCall : ArrayCall → Prop
  | .typeCreateStruct .. | .typeStruct .. | .commSpawnMultiple _ => False
  | _ => True

/-- The address lies in the bank of slots. -/
def Covers (x : ℕ) : Prop :=
  s.base ≤ x ∧ x < s.base + 8 * s.n

/-- A scalar call is on one of the slots. An array call is on consecutive ones, its backend leaves
the others alone, and its statuses lie elsewhere and are at most `89478486`, as far as the `int`
products of the source reach. -/
def WellFormed (t : SlotState) : RequestOp → Prop
  | .scalar i _ => i < s.n
  | .array first call native =>
    IsRequestCall call ∧ call.array = s.slot first ∧ first + call.count.toNat ≤ s.n ∧
    (∀ x, s.Covers x → ¬call.Covers x → call.left native t.mem x = t.mem x) ∧
    ∀ statuses n, call.statuses = some (statuses, n) → statusesWritable ignore statuses →
      n.value (call.left native t.mem) ≤ 89478486 ∧
      (statuses + 24 * (n.value (call.left native t.mem)).toNat ≤ s.base ∨
        s.base + 8 * s.n ≤ statuses) ∧
      ∀ a, n = .outcount a → a + 4 ≤ s.base ∨ s.base + 8 * s.n ≤ a

/-- Where the backend has stored its null request, the slot equals `UNIMPI_REQUEST_NULL`. -/
def Canonical (t : SlotState) : Prop :=
  ∀ i < s.n, load32 t.mem (s.slot i) = nativeRequestNull → load64 t.mem (s.slot i) = requestNull

/-- A scalar call stores the null request only where no array call left a negative handle. -/
def NullStoreOk (t : SlotState) : RequestOp → Prop
  | .scalar i native => native (load32 t.mem (s.slot i)) = some nativeRequestNull →
      ∀ v, t.lastLeft i = some v → v.msb = false
  | .array .. => True

/-- The word that a slot's high half holds. -/
def highWord (t : SlotState) (i : ℕ) : BitVec 32 :=
  match t.lastLeft i with
  | some v => signWord v
  | none => 0#32

/-- The high half of every slot is that of the last array call over it. -/
def HighWords (t : SlotState) : Prop :=
  ∀ i < s.n, load32 t.mem (s.slot i + 4) = highWord t i

/-! ## What one call does to the slots -/

variable {s ignore}

/-- A scalar call changes no byte but the low four of its slot. -/
theorem scalarCall_apply_of_notMem {i : ℕ} {native : BitVec 32 → Option (BitVec 32)} {m : Mem}
    {x : ℕ} (h : x < s.slot i ∨ s.slot i + 4 ≤ x) : s.scalarCall i native m x = m x := by
  cases hn : native (load32 m (s.slot i)) with
  | none => simp only [scalarCall, hn]
  | some v =>
    simp only [scalarCall, hn]
    exact store32_apply_of_notMem m v h

theorem load32_scalarCall_of_disjoint {i : ℕ} {native : BitVec 32 → Option (BitVec 32)} {m : Mem}
    {a : ℕ} (h : a + 4 ≤ s.slot i ∨ s.slot i + 4 ≤ a) :
    load32 (s.scalarCall i native m) a = load32 m a := by
  have hagree : AgreeOn a (a + 4) (s.scalarCall i native m) m := fun x hlo hhi =>
    scalarCall_apply_of_notMem (by omega)
  exact hagree.load32_eq le_rfl le_rfl

theorem load32_scalarCall_self {i : ℕ} {native : BitVec 32 → Option (BitVec 32)} {m : Mem}
    {v : BitVec 32} (h : native (load32 m (s.slot i)) = some v) :
    load32 (s.scalarCall i native m) (s.slot i) = v := by
  simp only [scalarCall, h]
  exact load32_store32_self m _ v

theorem scalarCall_of_none {i : ℕ} {native : BitVec 32 → Option (BitVec 32)} {m : Mem}
    (h : native (load32 m (s.slot i)) = none) : s.scalarCall i native m = m := by
  simp only [scalarCall, h]

section ArrayOp

variable {t : SlotState} {first : ℕ} {call : ArrayCall} {native : ArrayCall → Mem → Int × Mem}

theorem statusesApart_of_wellFormed (h : s.WellFormed ignore t (.array first call native)) :
    call.StatusesApart ignore (call.left native t.mem) := by
  obtain ⟨-, hstart, hfit, -, hapart⟩ := h
  intro statuses n hs hw
  obtain ⟨-, hrange, hcount⟩ := hapart statuses n hs hw
  unfold slot at hstart
  exact ⟨by omega, fun a ha => by have := hcount a ha; omega⟩

/-- A well-formed array call is the call with the `int` products of the source. -/
theorem runInt_of_wellFormed {memcpy : Mem → ℕ → ℕ → ℕ → Mem} (hcopy : OverlapSafe memcpy)
    (h : s.WellFormed ignore t (.array first call native)) :
    call.runInt memcpy ignore native t.mem = some (call.run ignore native t.mem) := by
  refine (ArrayCall.runInt_eq_some_iff hcopy).2 ⟨fun statuses n hs hw => ?_, rfl⟩
  have hvalue := (statusesApart_of_wellFormed h).value_eq
    (fun x hx => ArrayCall.expandInplace_of_not_covers (call.left native t.mem) hx) hs hw
  rw [ArrayCall.beforeStatuses, hvalue]
  exact (h.2.2.2.2 statuses n hs hw).1

/-- An array call leaves a covered slot with the sign extension of the backend's int. -/
theorem load64_array_covered (h : s.WellFormed ignore t (.array first call native)) {i : ℕ}
    (hlo : first ≤ i) (hhi : i < first + call.count.toNat) :
    load64 (call.run ignore native t.mem).2 (s.slot i) =
      (load32 (call.left native t.mem) (call.array + 4 * (i - first))).signExtend 64 := by
  have hrun := ArrayCall.run_handle (statusesApart_of_wellFormed h) (i := i - first) (by omega)
  have haddr : s.slot i = call.array + 8 * (i - first) := by
    rw [h.2.1]
    unfold slot
    omega
  rw [haddr]
  exact hrun

/-- An array call leaves the other slots alone. -/
theorem array_apply_of_not_covers (h : s.WellFormed ignore t (.array first call native)) {x : ℕ}
    (hx : s.Covers x) (hcall : ¬call.Covers x) : (call.run ignore native t.mem).2 x = t.mem x := by
  rw [ArrayCall.run_rest (statusesApart_of_wellFormed h) hcall]
  obtain ⟨-, -, -, hrest, hapart⟩ := h
  refine (ArrayCall.materialize_apply_of_notMem fun statuses n hs hw => ?_).trans
    (hrest x hx hcall)
  have hrange := (hapart statuses n hs hw).2.1
  unfold ArrayCall.left at hrange
  unfold Covers at hx
  omega

theorem load32_array_of_not_covered (h : s.WellFormed ignore t (.array first call native)) {i k : ℕ}
    (hi : i < s.n) (hout : ¬(first ≤ i ∧ i < first + call.count.toNat)) (hk : k ≤ 4) :
    load32 (call.run ignore native t.mem).2 (s.slot i + k) = load32 t.mem (s.slot i + k) := by
  have hagree : AgreeOn (s.slot i) (s.slot i + 8) (call.run ignore native t.mem).2 t.mem := by
    intro x hlo hhi
    have hstart := h.2.1
    unfold slot at hstart hlo hhi
    refine array_apply_of_not_covers h ?_ ?_
    · unfold Covers
      omega
    · unfold ArrayCall.Covers
      omega
  exact hagree.load32_eq (by omega) (by omega)

end ArrayOp

/-! ## Runs -/

theorem highWords_step {t : SlotState} {op : RequestOp} (hop : s.WellFormed ignore t op)
    (h : s.HighWords t) : s.HighWords (s.step ignore t op) := by
  intro i hi
  cases op with
  | scalar k native =>
    have hhigh :
        load32 (s.scalarCall k native t.mem) (s.slot i + 4) = load32 t.mem (s.slot i + 4) :=
      load32_scalarCall_of_disjoint (by unfold slot; omega)
    exact hhigh.trans (h i hi)
  | array first call native =>
    by_cases hin : first ≤ i ∧ i < first + call.count.toNat
    · have hslot := load64_array_covered hop hin.1 hin.2
      rw [load64_eq_signExtend_iff] at hslot
      simp only [step, highWord, if_pos hin]
      exact hslot.2
    · have hslot := load32_array_of_not_covered hop hi hin (k := 4) le_rfl
      simp only [step, highWord, if_neg hin]
      rw [hslot]
      exact h i hi

theorem signWord_eq_zero_iff (v : BitVec 32) : signWord v = 0#32 ↔ v.msb = false := by
  unfold signWord
  cases v.msb <;> decide

theorem load64_eq_requestNull_iff (m : Mem) (a : ℕ) :
    load64 m a = requestNull ↔ load32 m (a + 4) = 0#32 ∧ load32 m a = nativeRequestNull :=
  load64_eq_append_iff m a 0#32 nativeRequestNull

/-- The high word of a slot that holds a canonical null request is zero. -/
theorem Canonical.highWord_eq {t : SlotState} (h : s.Canonical t) (hhigh : s.HighWords t) {i : ℕ}
    (hi : i < s.n) (hnull : load32 t.mem (s.slot i) = nativeRequestNull) : highWord t i = 0#32 := by
  rw [← hhigh i hi]
  exact ((load64_eq_requestNull_iff _ _).1 (h i hi hnull)).1

/-- A permitted call keeps the slots canonical. -/
theorem canonical_step {t : SlotState} {op : RequestOp} (hop : s.WellFormed ignore t op)
    (hhigh : s.HighWords t) (h : s.Canonical t) (hok : s.NullStoreOk t op) :
    s.Canonical (s.step ignore t op) := by
  intro i hi hnull
  rw [load64_eq_requestNull_iff, highWords_step hop hhigh i hi]
  refine ⟨?_, hnull⟩
  cases op with
  | scalar k native =>
    have hkeep : highWord (s.step ignore t (.scalar k native)) i = highWord t i := rfl
    rw [hkeep]
    have hlow : load32 (s.scalarCall k native t.mem) (s.slot i) = nativeRequestNull := hnull
    by_cases hik : i = k
    · subst hik
      cases hn : native (load32 t.mem (s.slot i)) with
      | none =>
        rw [scalarCall_of_none hn] at hlow
        exact h.highWord_eq hhigh hi hlow
      | some v =>
        rw [load32_scalarCall_self hn] at hlow
        rw [hlow] at hn
        cases hl : t.lastLeft i with
        | none => simp only [highWord, hl]
        | some w =>
          simp only [highWord, hl]
          exact (signWord_eq_zero_iff w).2 (hok hn w hl)
    · rw [load32_scalarCall_of_disjoint (by unfold slot; omega)] at hlow
      exact h.highWord_eq hhigh hi hlow
  | array first call native =>
    by_cases hin : first ≤ i ∧ i < first + call.count.toNat
    · have hslot := load64_array_covered hop hin.1 hin.2
      rw [load64_eq_signExtend_iff] at hslot
      have hlow : load32 (call.run ignore native t.mem).2 (s.slot i) = nativeRequestNull := hnull
      simp only [step, highWord, if_pos hin]
      rw [← hslot.1, hlow]
      decide
    · have hlow : load32 (call.run ignore native t.mem).2 (s.slot i) = nativeRequestNull := hnull
      have hslot := load32_array_of_not_covered hop hi hin (k := 0) (by omega)
      simp only [Nat.add_zero] at hslot
      rw [hslot] at hlow
      simp only [step, highWord, if_neg hin]
      exact h.highWord_eq hhigh hi hlow

/-- A call after which the slots are canonical was permitted. -/
theorem nullStoreOk_of_canonical {t : SlotState} {op : RequestOp} (hop : s.WellFormed ignore t op)
    (hhigh : s.HighWords t) (h : s.Canonical (s.step ignore t op)) : s.NullStoreOk t op := by
  cases op with
  | scalar i native =>
    intro hn v hv
    have hlow : load32 (s.scalarCall i native t.mem) (s.slot i) = nativeRequestNull :=
      load32_scalarCall_self hn
    have hzero := h.highWord_eq (highWords_step hop hhigh) hop hlow
    have hsign : signWord v = 0#32 := by
      simpa only [highWord, step, hv] using hzero
    exact (signWord_eq_zero_iff v).1 hsign
  | array first call native => trivial

/-- The slots of a caller that has started no request. -/
def NullSlots (m : Mem) : Prop :=
  ∀ i < s.n, load64 m (s.slot i) = requestNull

theorem highWords_of_nullSlots {m : Mem} (h : s.NullSlots m) :
    s.HighWords ⟨m, fun _ => none⟩ := by
  intro i hi
  exact ((load64_eq_requestNull_iff _ _).1 (h i hi)).1

/-- A run from null slots keeps every slot canonical exactly when none of its scalar calls stores
the null request where the last array call left a negative handle. -/
theorem canonical_iff_nullStores {m : Mem} (hnull : s.NullSlots m) {ops : List RequestOp}
    (hops : AllSteps (s.step ignore) (s.WellFormed ignore) ⟨m, fun _ => none⟩ ops) :
    AllStates (s.step ignore) s.Canonical ⟨m, fun _ => none⟩ ops ↔
      AllSteps (s.step ignore) s.NullStoreOk ⟨m, fun _ => none⟩ ops :=
  allStates_iff_allSteps (J := s.HighWords)
    (fun _ _ hop hhigh => highWords_step hop hhigh)
    (fun _ _ hop hhigh hcan hok => canonical_step hop hhigh hcan hok)
    (fun _ _ hop hhigh hcan => nullStoreOk_of_canonical hop hhigh hcan)
    ops _ hops (highWords_of_nullSlots hnull) fun i hi _ => hnull i hi

end Slots

/-! ## A request with a negative handle -/

/-- One slot at address `0`. -/
def oneSlot : Slots :=
  ⟨0, 1⟩

def oneSlotMem : Mem :=
  store64 (fun _ => 0#8) 0 requestNull

/-- `isend` returns the handle `0xac000000`. -/
def isendNegative : RequestOp :=
  .scalar 0 fun _ => some 0xac000000#32

/-- `testall` finds the request incomplete. -/
def testallPending : RequestOp :=
  .array 0 (.testall 1 0 0x100 1) fun _ m => (0, m)

/-- `wait` completes the request and stores the null request. -/
def waitCompletes : RequestOp :=
  .scalar 0 fun _ => some nativeRequestNull

theorem nullSlots_oneSlot : oneSlot.NullSlots oneSlotMem := by
  intro i hi
  rw [show i = 0 from Nat.lt_one_iff.1 hi]
  decide

theorem wellFormed_testallPending (t : SlotState) : oneSlot.WellFormed 1 t testallPending := by
  refine ⟨trivial, rfl, le_rfl, fun x hx hcall => absurd hx hcall, ?_⟩
  rintro statuses n ⟨⟩ hw
  exact absurd hw (by decide)

theorem canonical_iff_nullStores_pending :
    AllStates (oneSlot.step 1) oneSlot.Canonical ⟨oneSlotMem, fun _ => none⟩
        [isendNegative, testallPending] ↔
      AllSteps (oneSlot.step 1) oneSlot.NullStoreOk ⟨oneSlotMem, fun _ => none⟩
        [isendNegative, testallPending] :=
  Slots.canonical_iff_nullStores nullSlots_oneSlot
    ⟨Nat.zero_lt_one, wellFormed_testallPending _, trivial⟩

/-- Between `testall` and `wait` the slot holds a negative handle, and after `wait` a null request
that does not equal `UNIMPI_REQUEST_NULL`. -/
theorem not_canonical_completed :
    oneSlot.NullSlots oneSlotMem ∧
      AllSteps (oneSlot.step 1) (oneSlot.WellFormed 1) ⟨oneSlotMem, fun _ => none⟩
        [isendNegative, testallPending, waitCompletes] ∧
      ¬AllStates (oneSlot.step 1) oneSlot.Canonical ⟨oneSlotMem, fun _ => none⟩
        [isendNegative, testallPending, waitCompletes] := by
  refine ⟨nullSlots_oneSlot,
    ⟨Nat.zero_lt_one, wellFormed_testallPending _, Nat.zero_lt_one, trivial⟩, ?_⟩
  rintro ⟨-, -, -, hlast⟩
  have hslot := hlast 0 Nat.zero_lt_one (by decide)
  revert hslot
  decide

end UniMPI
