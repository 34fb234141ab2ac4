import UniMPI.RequestSlots

/-!
# Programs over requests

A program written for an integer-handle backend keeps its requests in `int`s and calls
the backend directly. The same program over the facade keeps them in 8-byte slots, of
which scalar calls see the low word in place and array calls a compressed copy.

`FacadeState.step` is a call through the facade, on memory, and `NativeState.step` the
same call made directly, on a list of `int`s. `facade_answers` : whatever the calls and
their order, and however the array calls overlap, the backend goes through the same
states, every call returns the same code, and the low word of every slot is the `int`
the direct program holds.
-/

namespace UniMPI

open ByteMemory Runs

/-- What a backend answers to an array call: its return code, its next state and the handles it
leaves. -/
structure Reply (β : Type*) where
  ret : Int
  state : β
  handles : List (BitVec 32)

/-- A call of a backend with states `β`: on one handle, which it may replace, or on the handles of
consecutive slots. -/
inductive BackendCall (β : Type*)
  | scalar (i : ℕ) (reply : β → BitVec 32 → Int × β × Option (BitVec 32))
  | array (first : ℕ) (count : Int) (reply : β → List (BitVec 32) → Reply β)

/-! ## The direct program -/

/-- The requests of a direct program and the state of its backend. -/
structure NativeState (β : Type*) where
  requests : ℕ → BitVec 32
  state : β

namespace NativeState

variable {β : Type*}

/-- The handles that an array call of the direct program passes. -/
def passed (u : NativeState β) (first : ℕ) (count : Int) : List (BitVec 32) :=
  (List.range count.toNat).map fun k => u.requests (first + k)

def step (u : NativeState β) : BackendCall β → Int × NativeState β
  | .scalar i reply =>
    let (ret, state, handle) := reply u.state (u.requests i)
    (ret, { requests := fun k => if k = i then handle.getD (u.requests i) else u.requests k
            state := state })
  | .array first count reply =>
    let r := reply u.state (u.passed first count)
    (r.ret, { requests := fun k =>
                if first ≤ k ∧ k < first + count.toNat then r.handles.getD (k - first) 0
                else u.requests k
              state := r.state })

end NativeState

/-! ## The program over the facade -/

/-- The memory of a program over the facade and the state of its backend. -/
structure FacadeState (β : Type*) where
  mem : Mem
  state : β

/-- A call through the facade, with the code the backend runs for an array call. -/
inductive FacadeCall (β : Type*)
  | scalar (i : ℕ) (reply : β → BitVec 32 → Int × β × Option (BitVec 32))
  | array (first : ℕ) (call : ArrayCall) (reply : β → List (BitVec 32) → Reply β)
    (native : β → ArrayCall → Mem → Int × Mem)

/-- The call of the backend that a call through the facade stands for. -/
def FacadeCall.direct {β : Type*} : FacadeCall β → BackendCall β
  | .scalar i reply => .scalar i reply
  | .array first call reply _ => .array first call.count reply

/-- Called with these arguments, the code does to the ints of the handle array what the backend
replies. -/
def Realises {β : Type*} (call : ArrayCall) (reply : β → List (BitVec 32) → Reply β)
    (native : β → ArrayCall → Mem → Int × Mem) : Prop :=
  ∀ b m,
    (native b call m).1 = (reply b (ArrayCall.ints m call.array call.count.toNat)).ret ∧
      ArrayCall.ints (native b call m).2 call.array call.count.toNat =
        (reply b (ArrayCall.ints m call.array call.count.toNat)).handles

namespace FacadeState

variable {β : Type*} (s : Slots) (ignore : ℕ)

/-- The scalar calls are bound without an adapter. -/
def step (t : FacadeState β) : FacadeCall β → Int × FacadeState β
  | .scalar i reply =>
    let (ret, state, _) := reply t.state (load32 t.mem (s.slot i))
    (ret, { mem := s.scalarCall i (fun h => (reply t.state h).2.2) t.mem, state := state })
  | .array _ call reply native =>
    let r := call.run ignore (native t.state) t.mem
    let handed := ArrayCall.ints (compressInplace call.array call.count t.mem) call.array
      call.count.toNat
    (r.1, { mem := r.2, state := (reply t.state handed).state })

/-- The call as one on the slots alone. -/
def onSlots (t : FacadeState β) : FacadeCall β → RequestOp
  | .scalar i reply => .scalar i fun h => (reply t.state h).2.2
  | .array first call _ native => .array first call (native t.state)

/-- The call is well formed on the slots, and its code does what its backend replies. -/
def WellFormed (t : FacadeState β) (c : FacadeCall β) : Prop :=
  s.WellFormed ignore ⟨t.mem, fun _ => none⟩ (t.onSlots c) ∧
    match c with
    | .scalar .. => True
    | .array _ call reply native => Realises call reply native

/-- The low words of the slots are the requests of the direct program, and the backend is in the
same state. -/
structure Mirrors (t : FacadeState β) (u : NativeState β) : Prop where
  requests : ∀ i < s.n, load32 t.mem (s.slot i) = u.requests i
  state : t.state = u.state

/-! ## One call -/

variable {s ignore} {t : FacadeState β} {u : NativeState β}

/-- An adapter hands over the requests of the direct program. -/
theorem ints_compressInplace_eq_passed {first : ℕ} {call : ArrayCall}
    (h : Mirrors s t u) (hstart : call.array = s.slot first)
    (hfit : first + call.count.toNat ≤ s.n) :
    ArrayCall.ints (compressInplace call.array call.count t.mem) call.array call.count.toNat =
      u.passed first call.count := by
  refine List.map_congr_left fun k hk => ?_
  have hk := List.mem_range.1 hk
  have hslot : call.array + 8 * k = s.slot (first + k) := by
    rw [hstart]
    unfold Slots.slot
    omega
  rw [load32_compressInplace _ _ _ hk, hslot, nativeForm_load64, h.requests _ (by omega)]

theorem mirrors_scalar {i : ℕ} {reply : β → BitVec 32 → Int × β × Option (BitVec 32)}
    (h : Mirrors s t u) (hi : i < s.n) :
    (step s ignore t (.scalar i reply)).1 = (u.step (.scalar i reply)).1 ∧
      Mirrors s (step s ignore t (.scalar i reply)).2 (u.step (.scalar i reply)).2 := by
  have hreply : reply t.state (load32 t.mem (s.slot i)) = reply u.state (u.requests i) := by
    rw [h.state, h.requests i hi]
  refine ⟨by simp only [step, NativeState.step, hreply], ⟨fun k hk => ?_, ?_⟩⟩
  · simp only [step, NativeState.step]
    split_ifs with hki
    · subst hki
      cases hhandle : (reply u.state (u.requests k)).2.2 with
      | none =>
        rw [Slots.scalarCall_of_none (by rw [hreply, hhandle])]
        exact h.requests k hk
      | some v => exact Slots.load32_scalarCall_self (by rw [hreply, hhandle]; rfl)
    · rw [Slots.load32_scalarCall_of_disjoint (by unfold Slots.slot; omega)]
      exact h.requests k hk
  · simp only [step, NativeState.step, hreply]

theorem mirrors_array {first : ℕ} {call : ArrayCall} {reply : β → List (BitVec 32) → Reply β}
    {native : β → ArrayCall → Mem → Int × Mem} (h : Mirrors s t u)
    (hcall : WellFormed s ignore t (.array first call reply native)) :
    (step s ignore t (.array first call reply native)).1 =
        (u.step (.array first call.count reply)).1 ∧
      Mirrors s (step s ignore t (.array first call reply native)).2
        (u.step (.array first call.count reply)).2 := by
  obtain ⟨hslots, hnative⟩ := hcall
  obtain ⟨-, hstart, hfit, -, -⟩ := id hslots
  have hpassed := ints_compressInplace_eq_passed h hstart hfit
  obtain ⟨hret, hleft⟩ := hnative t.state (compressInplace call.array call.count t.mem)
  rw [hpassed, h.state] at hret hleft
  refine ⟨?_, ⟨fun k hk => ?_, ?_⟩⟩
  · simp only [step, ArrayCall.run_eq, NativeState.step]
    rw [h.state]
    exact hret
  · simp only [step, NativeState.step]
    split_ifs with hin
    · have hword := Slots.load64_array_covered hslots hin.1 hin.2
      rw [load64_eq_signExtend_iff] at hword
      rw [hword.1, ← hleft]
      have hlt : k - first < call.count.toNat := by omega
      simp [ArrayCall.ints, ArrayCall.left, List.getD_eq_getElem?_getD, hlt, h.state]
    · have hslot := Slots.load32_array_of_not_covered hslots hk hin (k := 0) (by omega)
      exact hslot.trans (h.requests k hk)
  · simp only [step, NativeState.step, hpassed, h.state]

/-- A call through the facade is the direct call. -/
theorem mirrors_step (t : FacadeState β) (u : NativeState β) (c : FacadeCall β)
    (h : Mirrors s t u) (hc : WellFormed s ignore t c) :
    (step s ignore t c).1 = (u.step c.direct).1 ∧
      Mirrors s (step s ignore t c).2 (u.step c.direct).2 := by
  cases c with
  | scalar i reply => exact mirrors_scalar h hc.1
  | array first call reply native => exact mirrors_array h hc

/-! ## Results -/

/-- A program over the facade is answered as the direct program: the same codes, the same backend
state, and the low words of the slots are the direct program's requests. -/
theorem facade_answers {cs : List (FacadeCall β)}
    (hcs : AllSteps (fun t c => (step s ignore t c).2) (WellFormed s ignore) t cs)
    (h : Mirrors s t u) :
    (answers (step s ignore) t cs).1 =
        (answers NativeState.step u (cs.map FacadeCall.direct)).1 ∧
      Mirrors s (answers (step s ignore) t cs).2
        (answers NativeState.step u (cs.map FacadeCall.direct)).2 :=
  answers_simulation mirrors_step cs t u hcs h

end FacadeState

/-! ## A program with an array call between two scalar ones -/

/-- `isend`, `testall` and `wait` on one slot, over a backend that counts its calls. -/
def countedProgram : List (FacadeCall ℕ) :=
  [.scalar 0 fun b _ => (0, b + 1, some 0xac000000#32),
    .array 0 (.testall 1 0 0x100 1) (fun b handles => ⟨0, b + 1, handles⟩) fun _ _ m => (0, m),
    .scalar 0 fun b _ => (0, b + 1, some nativeRequestNull)]

theorem wellFormed_countedProgram :
    AllSteps (fun t c => (FacadeState.step oneSlot 1 t c).2) (FacadeState.WellFormed oneSlot 1)
      ⟨oneSlotMem, 0⟩ countedProgram :=
  ⟨⟨Nat.zero_lt_one, trivial⟩, ⟨wellFormed_testallPending _, fun _ _ => ⟨rfl, rfl⟩⟩,
    ⟨Nat.zero_lt_one, trivial⟩, trivial⟩

/-- Three calls, each counted once. -/
theorem facade_answers_counted :
    (answers (FacadeState.step oneSlot 1) ⟨oneSlotMem, 0⟩ countedProgram).1 =
        (answers NativeState.step ⟨fun _ => nativeRequestNull, 0⟩
          (countedProgram.map FacadeCall.direct)).1 ∧
      FacadeState.Mirrors oneSlot
        (answers (FacadeState.step oneSlot 1) ⟨oneSlotMem, 0⟩ countedProgram).2
        (answers NativeState.step ⟨fun _ => nativeRequestNull, 0⟩
          (countedProgram.map FacadeCall.direct)).2 := by
  refine FacadeState.facade_answers wellFormed_countedProgram ⟨fun i hi => ?_, rfl⟩
  have hslot := nullSlots_oneSlot i hi
  exact ((Slots.load64_eq_requestNull_iff _ _).1 hslot).2

end UniMPI
