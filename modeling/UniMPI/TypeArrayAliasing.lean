import UniMPI.DatatypeWrappers

/-!
# One array for both sides

Both datatype arrays of `alltoallw` and its siblings are inputs, so nothing
stops a caller from passing the same array, or two overlapping ones, for both.
The adapters then compress and restore shared words twice. `convertsTypes_iff`
is the exact condition under which the backend is still handed the native forms
and the caller gets the handles back. For one array passed twice it reads: every
handle after the first has the sign word of the first as its low word
(`noConflict_of_same_iff`), which no two datatypes of an integer-handle backend
satisfy.
-/

namespace UniMPI

open ByteMemory

/-- The adapter keeps its word: there is a memory in which every int slot holds the native form of
the caller's handle, the backend is called on it, and a backend that only reads the arrays leaves
the caller with the sign extensions of the handles' low words. The arrays are as long as the
adapter's own query of the communicator says, whatever their length in the caller. -/
def ConvertsTypes (q : CommQueries) (call : TypeArrayCall) (m : Mem) : Prop :=
  ∀ t, call.arrays q = some t → ∃ handed, t.HoldsNativeForms m handed ∧
    ∀ native, t.OnlyReads (native call) → (call.run q native m).1 = (native call handed).1 ∧
      t.HoldsSignExtensions m (call.run q native m).2

/-! ## Handles that repeat the sign of the first -/

/-- Every handle after the first has the sign word of the first as its low word. -/
def RepeatsSign (handle : ℕ → BitVec 64) (n : ℕ) : Prop :=
  ∀ i, 1 ≤ i → i < n → nativeForm (handle i) = signWord (nativeForm (handle 0))

/-- It is enough that each handle has the sign word of one before it, or repeats one other than the
first. -/
theorem repeatsSign_of_tied {handle : ℕ → BitVec 64} {n : ℕ}
    (h : ∀ i, 1 ≤ i → i < n → ∃ p < i, nativeForm (handle i) = signWord (nativeForm (handle p)) ∨
      1 ≤ p ∧ nativeForm (handle i) = nativeForm (handle p)) : RepeatsSign handle n := by
  intro i
  induction i using Nat.strong_induction_on with
  | _ i ih =>
    intro h1 hi
    obtain ⟨p, hpi, heq | ⟨hp, heq⟩⟩ := h i h1 hi
    · rcases Nat.eq_zero_or_pos p with rfl | hp
      · exact heq
      · rw [heq, ih p hpi hp (by omega), signWord_signWord]
    · rw [heq, ih p hpi hp (by omega)]

/-- All handles of such an array have the sign of the first. -/
theorem RepeatsSign.signWord_eq {handle : ℕ → BitVec 64} {n i : ℕ} (h : RepeatsSign handle n)
    (hi : i < n) : signWord (nativeForm (handle i)) = signWord (nativeForm (handle 0)) := by
  rcases Nat.eq_zero_or_pos i with rfl | hpos
  · rfl
  · rw [h i hpos hi, signWord_signWord]

/-- Handles after the first are the same. -/
theorem RepeatsSign.eq_of_pos {handle : ℕ → BitVec 64} {n i j : ℕ} (h : RepeatsSign handle n)
    (hi : i < n) (hj : j < n) (hpos : i = 0 ↔ j = 0) :
    nativeForm (handle i) = nativeForm (handle j) := by
  rcases Nat.eq_zero_or_pos i with rfl | hi0
  · rw [hpos.1 rfl]
  · rw [h i hi0 hi, h j (by omega) hj]

namespace TypeArrays

variable (t : TypeArrays)

/-- A memory with the same bytes in the arrays holds the same native forms. -/
theorem HoldsNativeForms.of_agree {t : TypeArrays} {m handed handed' : Mem}
    (h : t.HoldsNativeForms m handed) (hagree : ∀ x, t.Covers x → handed' x = handed x) :
    t.HoldsNativeForms m handed' where
  send i hi := by
    have hsend : AgreeOn t.sendtypes (t.sendtypes + 8 * t.outdeg.toNat) handed' handed :=
      fun x hlo hhi => hagree x (Or.inl ⟨hlo, hhi⟩)
    rw [hsend.load32_eq (by omega) (by omega), h.send i hi]
  recv j hj := by
    have hrecv : AgreeOn t.recvtypes (t.recvtypes + 8 * t.indeg.toNat) handed' handed :=
      fun x hlo hhi => hagree x (Or.inr ⟨hlo, hhi⟩)
    rw [hrecv.load32_eq (by omega) (by omega), h.recv j hj]

/-- A backend that reads one int slot and does nothing else. -/
def reader (a : ℕ) (m : Mem) : Int × Mem :=
  ((load32 m a).toNat, m)

theorem onlyReads_reader (a : ℕ) : t.OnlyReads (reader a) :=
  fun _ _ _ => rfl

/-- A backend that reads any slot sees the compressed arrays. -/
theorem load32_eq_of_reader {m handed : Mem} {a : ℕ}
    (h : (withTypeArrays t (reader a) m).1 = (reader a handed).1) :
    load32 (compressTypes t m) a = load32 handed a :=
  BitVec.eq_of_toNat_eq (Int.ofNat_inj.1 h)

/-- Arrays that one call handles as promised do not conflict. -/
theorem noConflict_of_converted {m handed : Mem} (hview : t.HoldsNativeForms m handed)
    (hcall : ∀ native, t.OnlyReads native →
      (withTypeArrays t native m).1 = (native handed).1 ∧
        t.HoldsSignExtensions m (withTypeArrays t native m).2) : t.NoConflict m := by
  have hread : ∀ a, load32 (compressTypes t m) a = load32 handed a := fun a =>
    t.load32_eq_of_reader (hcall (reader a) (t.onlyReads_reader a)).1
  have hforms : t.HoldsNativeForms m (compressTypes t m) :=
    ⟨fun i hi => (hread _).trans (hview.send i hi), fun j hj => (hread _).trans (hview.recv j hj)⟩
  have hback := (hcall (reader 0) (t.onlyReads_reader 0)).2
  exact {
    narrow := fun i hi j hj => t.narrow_of_holdsNativeForms hforms hi hj
    slot := fun i hi j hj => t.slot_of_holdsNativeForms hforms hi hj
    widen := fun i hi j hj => t.widen_of_holdsSignExtensions hforms hback hi hj
    widenSign := fun i hi j hj => t.widenSign_of_holdsSignExtensions hforms hback hi hj }

/-- One array passed for both sides. -/
theorem noConflict_of_same_iff (m : Mem) (htypes : t.recvtypes = t.sendtypes)
    (hdeg : t.indeg = t.outdeg) :
    t.NoConflict m ↔ RepeatsSign (t.sendHandle m) t.outdeg.toNat := by
  have hsame : ∀ j, t.recvHandle m j = t.sendHandle m j := by
    intro j
    rw [recvHandle, sendHandle, htypes]
  constructor
  · intro h
    refine repeatsSign_of_tied fun i h1 hi => ?_
    -- each handle is tied to one of half its index
    rcases Nat.even_or_odd' i with ⟨k, rfl | rfl⟩
    · have heq := h.widen k (by omega) (2 * k) (by omega) (by omega)
      rw [hsame] at heq
      exact ⟨k, by omega, Or.inr ⟨by omega, heq⟩⟩
    · have heq := h.widenSign k (by omega) (2 * k + 1) (by omega) (by omega)
      rw [hsame] at heq
      exact ⟨k, by omega, Or.inl heq⟩
  · intro h
    refine ⟨fun i hi j hj heq => ?_, fun i hi j hj heq => ?_, fun i hi j hj heq => ?_,
      fun i hi j hj heq => ?_⟩
    · rw [hsame]
      exact h.eq_of_pos (by omega) hi (by omega)
    · rw [hsame, show i = j by omega]
    · rw [hsame]
      exact h.eq_of_pos (by omega) hi (by omega)
    · rw [hsame, h j (by omega) (by omega), h.signWord_eq hi]

end TypeArrays

theorem TypeArrayCall.noConflict_of_convertsTypes {q : CommQueries} {call : TypeArrayCall}
    {m : Mem} (h : ConvertsTypes q call m) {t : TypeArrays} (ht : call.arrays q = some t) :
    t.NoConflict m := by
  obtain ⟨handed, hview, hcall⟩ := h t ht
  refine t.noConflict_of_converted hview fun native honly => ?_
  have hrun := TypeArrayCall.run_of_arrays ht (fun _ => native) m
  rw [← hrun]
  exact hcall (fun _ => native) honly

/-- The adapters keep their word exactly on arrays without a conflict. -/
theorem convertsTypes_iff (q : CommQueries) (call : TypeArrayCall) (m : Mem) :
    ConvertsTypes q call m ↔ ∀ t, call.arrays q = some t → t.NoConflict m := by
  constructor
  · intro h t ht
    exact TypeArrayCall.noConflict_of_convertsTypes h ht
  · intro h t ht
    have hforms := t.holdsNativeForms_of_noConflict (h t ht)
    refine ⟨compressTypes t m, hforms, fun native honly => ?_⟩
    rw [TypeArrayCall.run_of_arrays ht]
    exact ⟨rfl, t.holdsSignExtensions_of_noConflict (h t ht) (hforms.of_agree (honly _))⟩

/-! ## A shared array of three datatypes -/

/-- A communicator of three processes. -/
def threeProcesses : CommQueries where
  constants := ⟨0, 0, 0, 0, 0⟩
  commSize _ := 3
  topology _ := ⟨none, none, none, none, none, none, none, true⟩

/-- `MPI_INT`, `MPI_DOUBLE` and `MPI_CHAR` from address `0` on. -/
def threeTypes : Mem :=
  store64 (store64 (store64 (fun _ => 0#8) 0 0x4c000405#64) 8 0x4c00080b#64) 16 0x4c000101#64

/-- The array at address `0` for both sides. -/
def sharedArgs : TypeArrayArgs where
  sendbuf := 0x100
  sendcounts := 0x200
  sdispls := 0x300
  sendtypes := 0
  recvbuf := 0x400
  recvcounts := 0x200
  rdispls := 0x300
  recvtypes := 0
  comm := 0x44000000#64
  sendtypes_aligned := by decide
  recvtypes_aligned := by decide

theorem not_convertsTypes_shared :
    ¬ConvertsTypes threeProcesses (.alltoallw sharedArgs) threeTypes := by
  intro h
  have hsign := (TypeArrayCall.noConflict_of_convertsTypes h rfl).widenSign 0 (by decide) 1
    (by decide) (by decide)
  exact absurd hsign (by decide)

end UniMPI
