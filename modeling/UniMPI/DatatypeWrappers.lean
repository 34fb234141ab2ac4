import UniMPI.HandleArrays
import UniMPI.NeighborDegree

/-!
# Collectives over two datatype arrays

`alltoallw`, `ialltoallw` and their neighbor variants take two arrays of
datatype handles. Their adapters compress the send array, then the receive
array, call the backend, and restore the two in the same order. Both arrays are
inputs, so a caller may pass the same one twice.

When no rewritten word of one array is read as a word of the other, the backend
is handed the native forms and the caller gets its handles back. `NoConflict`
says exactly when that happens: where the two arrays share words, the handles
that meet there must agree (`handsNativeForms_iff`, `restoresHandles_iff`).
Disjoint arrays never conflict (`noConflict_of_disjoint`).
-/

namespace UniMPI

open ByteMemory

/-! ## The adapters -/

/-- The arguments of the collectives that take two datatype arrays. `MPI_Datatype` is eight bytes
wide and aligned. -/
structure TypeArrayArgs where
  sendbuf : ℕ
  sendcounts : ℕ
  sdispls : ℕ
  sendtypes : ℕ
  recvbuf : ℕ
  recvcounts : ℕ
  rdispls : ℕ
  recvtypes : ℕ
  comm : BitVec 64
  sendtypes_aligned : 8 ∣ sendtypes
  recvtypes_aligned : 8 ∣ recvtypes

/-- What the adapters ask the backend about a communicator. -/
structure CommQueries where
  constants : TopologyConstants
  /-- What `comm_size` leaves in `n`. -/
  commSize : BitVec 64 → Int
  topology : BitVec 64 → TopologyQueries

/-- The two datatype arrays of a call with their lengths. -/
structure TypeArrays where
  sendtypes : ℕ
  outdeg : Int
  recvtypes : ℕ
  indeg : Int
  sendtypes_aligned : 8 ∣ sendtypes
  recvtypes_aligned : 8 ∣ recvtypes

/-- The arrays of a call as `outdeg` and `indeg` handles. -/
def TypeArrayArgs.arrays (a : TypeArrayArgs) (outdeg indeg : Int) : TypeArrays :=
  ⟨a.sendtypes, outdeg, a.recvtypes, indeg, a.sendtypes_aligned, a.recvtypes_aligned⟩

/-- Compress the send array, then the receive array. -/
def compressTypes (t : TypeArrays) (m : Mem) : Mem :=
  dtypesCompressInplace t.recvtypes t.indeg (dtypesCompressInplace t.sendtypes t.outdeg m)

/-- Restore the send array, then the receive array. -/
def restoreTypes (t : TypeArrays) (m : Mem) : Mem :=
  dtypesRestoreInplace t.recvtypes t.indeg (dtypesRestoreInplace t.sendtypes t.outdeg m)

/-- The native call between compressing and restoring. -/
def withTypeArrays (t : TypeArrays) (native : Mem → Int × Mem) (m : Mem) : Int × Mem :=
  let (ret, m) := native (compressTypes t m)
  (ret, restoreTypes t m)

/-- `mpich_wrap_alltoallw`: both arrays have the size of the communicator. -/
def wrapAlltoallw (q : CommQueries) (mpichAlltoallw : TypeArrayArgs → Mem → Int × Mem)
    (a : TypeArrayArgs) (m : Mem) : Int × Mem :=
  let n := q.commSize a.comm
  withTypeArrays (a.arrays n n) (mpichAlltoallw a) m

/-- `mpich_wrap_ialltoallw`. -/
def wrapIalltoallw (q : CommQueries) (mpichIalltoallw : TypeArrayArgs → ℕ → Mem → Int × Mem)
    (a : TypeArrayArgs) (request : ℕ) (m : Mem) : Int × Mem :=
  let n := q.commSize a.comm
  withTypeArrays (a.arrays n n) (mpichIalltoallw a request) m

/-- The neighbor adapters: the lengths are the degrees, and a failing query is returned without
calling the backend. -/
def withNeighborArrays (q : CommQueries) (a : TypeArrayArgs) (native : Mem → Int × Mem) (m : Mem) :
    Int × Mem :=
  let (rc, indeg, outdeg) := neighborDegree q.constants (q.topology a.comm)
  if rc ≠ q.constants.success then (rc, m)
  else withTypeArrays (a.arrays outdeg indeg) native m

/-- `mpich_wrap_neighbor_alltoallw`. -/
def wrapNeighborAlltoallw (q : CommQueries)
    (mpichNeighborAlltoallw : TypeArrayArgs → Mem → Int × Mem) (a : TypeArrayArgs) (m : Mem) :
    Int × Mem :=
  withNeighborArrays q a (mpichNeighborAlltoallw a) m

/-- `mpich_wrap_ineighbor_alltoallw`. -/
def wrapIneighborAlltoallw (q : CommQueries)
    (mpichIneighborAlltoallw : TypeArrayArgs → ℕ → Mem → Int × Mem) (a : TypeArrayArgs)
    (request : ℕ) (m : Mem) : Int × Mem :=
  withNeighborArrays q a (mpichIneighborAlltoallw a request) m

/-! ## The four calls -/

/-- A call of one of the four adapters. -/
inductive TypeArrayCall
  | alltoallw (a : TypeArrayArgs)
  | ialltoallw (a : TypeArrayArgs) (request : ℕ)
  | neighborAlltoallw (a : TypeArrayArgs)
  | ineighborAlltoallw (a : TypeArrayArgs) (request : ℕ)

namespace TypeArrayCall

/-- The call over a backend whose functions do `native` on the arguments they are passed. -/
def run (q : CommQueries) (native : TypeArrayCall → Mem → Int × Mem) :
    TypeArrayCall → Mem → Int × Mem
  | alltoallw a => wrapAlltoallw q (fun a => native (alltoallw a)) a
  | ialltoallw a request => wrapIalltoallw q (fun a r => native (ialltoallw a r)) a request
  | neighborAlltoallw a => wrapNeighborAlltoallw q (fun a => native (neighborAlltoallw a)) a
  | ineighborAlltoallw a request =>
    wrapIneighborAlltoallw q (fun a r => native (ineighborAlltoallw a r)) a request

/-- The arrays the call converts; `none` when the degree query fails. -/
def arrays (q : CommQueries) : TypeArrayCall → Option TypeArrays
  | alltoallw a | ialltoallw a _ => some (a.arrays (q.commSize a.comm) (q.commSize a.comm))
  | neighborAlltoallw a | ineighborAlltoallw a _ =>
    let (rc, indeg, outdeg) := neighborDegree q.constants (q.topology a.comm)
    if rc ≠ q.constants.success then none else some (a.arrays outdeg indeg)

/-- A call that converts arrays is the native call with the same arguments between compressing and
restoring them. -/
theorem run_of_arrays {q : CommQueries} {call : TypeArrayCall} {t : TypeArrays}
    (h : call.arrays q = some t) (native : TypeArrayCall → Mem → Int × Mem) (m : Mem) :
    call.run q native m = withTypeArrays t (native call) m := by
  cases call with
  | alltoallw a =>
    obtain rfl := Option.some.inj h
    rfl
  | ialltoallw a request =>
    obtain rfl := Option.some.inj h
    rfl
  | neighborAlltoallw a =>
    simp only [arrays] at h
    simp only [run, wrapNeighborAlltoallw, withNeighborArrays]
    split_ifs at h ⊢ with hrc
    rw [Option.some.inj h]
  | ineighborAlltoallw a request =>
    simp only [arrays] at h
    simp only [run, wrapIneighborAlltoallw, withNeighborArrays]
    split_ifs at h ⊢ with hrc
    rw [Option.some.inj h]

end TypeArrayCall

/-! ## What a call owes its caller and the backend -/

namespace TypeArrays

variable (t : TypeArrays)

/-- The caller's `i`-th send handle. -/
def sendHandle (m : Mem) (i : ℕ) : BitVec 64 :=
  load64 m (t.sendtypes + 8 * i)

/-- The caller's `j`-th receive handle. -/
def recvHandle (m : Mem) (j : ℕ) : BitVec 64 :=
  load64 m (t.recvtypes + 8 * j)

/-- The address lies in one of the arrays. -/
def Covers (x : ℕ) : Prop :=
  (t.sendtypes ≤ x ∧ x < t.sendtypes + 8 * t.outdeg.toNat) ∨
    (t.recvtypes ≤ x ∧ x < t.recvtypes + 8 * t.indeg.toNat)

/-- The backend only reads the arrays. -/
def OnlyReads (native : Mem → Int × Mem) : Prop :=
  ∀ m x, t.Covers x → (native m).2 x = m x

/-- The int slots of both arrays in `handed` hold the native forms of the handles of `m`. -/
structure HoldsNativeForms (m handed : Mem) : Prop where
  send : ∀ i < t.outdeg.toNat,
    load32 handed (t.sendtypes + 4 * i) = nativeForm (t.sendHandle m i)
  recv : ∀ j < t.indeg.toNat,
    load32 handed (t.recvtypes + 4 * j) = nativeForm (t.recvHandle m j)

/-- Every element of both arrays in `returned` is the sign extension of its low word in `m`. -/
structure HoldsSignExtensions (m returned : Mem) : Prop where
  send : ∀ i < t.outdeg.toNat,
    t.sendHandle returned i = (nativeForm (t.sendHandle m i)).signExtend 64
  recv : ∀ j < t.indeg.toNat,
    t.recvHandle returned j = (nativeForm (t.recvHandle m j)).signExtend 64

/-- Where an int slot or a low half of one array is a word of the other, the handles agree. The
first conflict is between the two forward scans, the second between the int slots, the last two
between the backward scans. -/
structure NoConflict (m : Mem) : Prop where
  narrow : ∀ i < t.outdeg.toNat, ∀ j < t.indeg.toNat,
    t.recvtypes + 8 * j = t.sendtypes + 4 * i →
      nativeForm (t.recvHandle m j) = nativeForm (t.sendHandle m i)
  slot : ∀ i < t.outdeg.toNat, ∀ j < t.indeg.toNat,
    t.recvtypes + 4 * j = t.sendtypes + 4 * i →
      nativeForm (t.recvHandle m j) = nativeForm (t.sendHandle m i)
  widen : ∀ i < t.outdeg.toNat, ∀ j < t.indeg.toNat,
    t.recvtypes + 4 * j = t.sendtypes + 8 * i →
      nativeForm (t.recvHandle m j) = nativeForm (t.sendHandle m i)
  widenSign : ∀ i < t.outdeg.toNat, ∀ j < t.indeg.toNat,
    t.recvtypes + 4 * j = t.sendtypes + 8 * i + 4 →
      nativeForm (t.recvHandle m j) = signWord (nativeForm (t.sendHandle m i))

/-- Arrays that do not overlap do not conflict. -/
theorem noConflict_of_disjoint (m : Mem)
    (h : t.sendtypes + 8 * t.outdeg.toNat ≤ t.recvtypes ∨
      t.recvtypes + 8 * t.indeg.toNat ≤ t.sendtypes) : t.NoConflict m where
  narrow i hi j hj heq := by omega
  slot i hi j hj heq := by omega
  widen i hi j hj heq := by omega
  widenSign i hi j hj heq := by omega

/-! ## The arrays as words -/

/-- The first word of the send array. -/
def sendWord : ℕ := t.sendtypes / 4

/-- The first word of the receive array. -/
def recvWord : ℕ := t.recvtypes / 4

theorem sendtypes_eq : t.sendtypes = 0 + 4 * t.sendWord := by
  have := t.sendtypes_aligned
  unfold sendWord
  omega

theorem recvtypes_eq : t.recvtypes = 0 + 4 * t.recvWord := by
  have := t.recvtypes_aligned
  unfold recvWord
  omega

/-- Slots of the two arrays are at one address if their words are the same. -/
theorem words_meet_iff {i j : ℕ} :
    t.recvtypes + 4 * j = t.sendtypes + 4 * i ↔ t.recvWord + j = t.sendWord + i := by
  have hs := t.sendtypes_eq
  have hr := t.recvtypes_eq
  omega

/-- Both arrays begin at an even word. -/
theorem words_even : 2 ∣ t.sendWord ∧ 2 ∣ t.recvWord := by
  have hs := t.sendtypes_aligned
  have hr := t.recvtypes_aligned
  unfold sendWord recvWord
  omega

theorem load32_send (m : Mem) (k : ℕ) :
    load32 m (t.sendtypes + 4 * k) = wordsAt 0 m (t.sendWord + k) := by
  rw [wordsAt, t.sendtypes_eq]
  congr 1
  omega

theorem load32_recv (m : Mem) (k : ℕ) :
    load32 m (t.recvtypes + 4 * k) = wordsAt 0 m (t.recvWord + k) := by
  rw [wordsAt, t.recvtypes_eq]
  congr 1
  omega

theorem nativeForm_sendHandle (m : Mem) (i : ℕ) :
    nativeForm (t.sendHandle m i) = wordsAt 0 m (t.sendWord + 2 * i) := by
  rw [sendHandle, nativeForm_load64, ← t.load32_send]
  congr 1
  omega

theorem nativeForm_recvHandle (m : Mem) (j : ℕ) :
    nativeForm (t.recvHandle m j) = wordsAt 0 m (t.recvWord + 2 * j) := by
  rw [recvHandle, nativeForm_load64, ← t.load32_recv]
  congr 1
  omega

theorem sendHandle_eq_iff (m : Mem) (i : ℕ) (v : BitVec 32) :
    t.sendHandle m i = v.signExtend 64 ↔
      wordsAt 0 m (t.sendWord + 2 * i) = v ∧
        wordsAt 0 m (t.sendWord + 2 * i + 1) = signWord v := by
  rw [sendHandle, load64_eq_signExtend_iff, ← t.load32_send, Nat.add_assoc t.sendWord,
    ← t.load32_send]
  have h0 : t.sendtypes + 4 * (2 * i) = t.sendtypes + 8 * i := by omega
  have h1 : t.sendtypes + 4 * (2 * i + 1) = t.sendtypes + 8 * i + 4 := by omega
  rw [h0, h1]

theorem recvHandle_eq_iff (m : Mem) (j : ℕ) (v : BitVec 32) :
    t.recvHandle m j = v.signExtend 64 ↔
      wordsAt 0 m (t.recvWord + 2 * j) = v ∧
        wordsAt 0 m (t.recvWord + 2 * j + 1) = signWord v := by
  rw [recvHandle, load64_eq_signExtend_iff, ← t.load32_recv, Nat.add_assoc t.recvWord,
    ← t.load32_recv]
  have h0 : t.recvtypes + 4 * (2 * j) = t.recvtypes + 8 * j := by omega
  have h1 : t.recvtypes + 4 * (2 * j + 1) = t.recvtypes + 8 * j + 4 := by omega
  rw [h0, h1]

theorem wordsAt_compressTypes (m : Mem) :
    wordsAt 0 (compressTypes t m) =
      narrowed (narrowed (wordsAt 0 m) t.sendWord t.outdeg.toNat) t.recvWord t.indeg.toNat := by
  unfold compressTypes dtypesCompressInplace
  rw [t.recvtypes_eq, wordsAt_compressInplace, t.sendtypes_eq, wordsAt_compressInplace]

theorem wordsAt_restoreTypes (m : Mem) :
    wordsAt 0 (restoreTypes t m) =
      widened (widened (wordsAt 0 m) t.sendWord t.outdeg.toNat) t.recvWord t.indeg.toNat := by
  unfold restoreTypes dtypesRestoreInplace
  rw [t.recvtypes_eq, wordsAt_expandInplace, t.sendtypes_eq, wordsAt_expandInplace]

/-! ## What the backend is handed -/

/-- Slot `j` of the receive array is read after the send array has been compressed. -/
theorem compressed_recv (m : Mem) {j : ℕ} (hj : j < t.indeg.toNat) :
    wordsAt 0 (compressTypes t m) (t.recvWord + j) =
      narrowed (wordsAt 0 m) t.sendWord t.outdeg.toNat (t.recvWord + 2 * j) := by
  rw [t.wordsAt_compressTypes, narrowed_apply _ hj]

theorem narrow_of_holdsNativeForms {m : Mem} (h : t.HoldsNativeForms m (compressTypes t m))
    {i j : ℕ} (hi : i < t.outdeg.toNat) (hj : j < t.indeg.toNat)
    (heq : t.recvtypes + 8 * j = t.sendtypes + 4 * i) :
    nativeForm (t.recvHandle m j) = nativeForm (t.sendHandle m i) := by
  have hword : t.recvWord + 2 * j = t.sendWord + i := t.words_meet_iff.1 (by omega)
  have hread := h.recv j hj
  rw [t.load32_recv, t.compressed_recv m hj, hword, narrowed_apply _ hi] at hread
  rw [← hread, t.nativeForm_sendHandle]

theorem slot_of_holdsNativeForms {m handed : Mem} (h : t.HoldsNativeForms m handed) {i j : ℕ}
    (hi : i < t.outdeg.toNat) (hj : j < t.indeg.toNat)
    (heq : t.recvtypes + 4 * j = t.sendtypes + 4 * i) :
    nativeForm (t.recvHandle m j) = nativeForm (t.sendHandle m i) := by
  rw [← h.recv j hj, ← h.send i hi, heq]

/-- The backend is handed the native forms exactly if the forward scans and the int slots do not
conflict. -/
theorem holdsNativeForms_iff (m : Mem) :
    t.HoldsNativeForms m (compressTypes t m) ↔ ∀ i < t.outdeg.toNat, ∀ j < t.indeg.toNat,
      t.recvtypes + 8 * j = t.sendtypes + 4 * i ∨ t.recvtypes + 4 * j = t.sendtypes + 4 * i →
        nativeForm (t.recvHandle m j) = nativeForm (t.sendHandle m i) := by
  constructor
  · rintro h i hi j hj (hnarrow | hslot)
    · exact t.narrow_of_holdsNativeForms h hi hj hnarrow
    · exact t.slot_of_holdsNativeForms h hi hj hslot
  · intro h
    have hs := t.sendtypes_eq
    have hr := t.recvtypes_eq
    have hrecv : ∀ j < t.indeg.toNat,
        load32 (compressTypes t m) (t.recvtypes + 4 * j) = nativeForm (t.recvHandle m j) := by
      intro j hj
      rw [t.load32_recv, t.compressed_recv m hj, t.nativeForm_recvHandle]
      by_cases hin : t.sendWord ≤ t.recvWord + 2 * j ∧
          t.recvWord + 2 * j < t.sendWord + t.outdeg.toNat
      · -- word `2 * j` of the receive array is the int slot `i` of the send array
        obtain ⟨i, hi⟩ := Nat.exists_eq_add_of_le hin.1
        have hagree := h i (by omega) j hj (Or.inl (by omega))
        rw [t.nativeForm_recvHandle, t.nativeForm_sendHandle] at hagree
        rw [hagree, hi, narrowed_apply _ (by omega)]
      · exact narrowed_of_notMem _ (by omega)
    refine ⟨fun i hi => ?_, hrecv⟩
    by_cases hin : t.recvWord ≤ t.sendWord + i ∧ t.sendWord + i < t.recvWord + t.indeg.toNat
    · obtain ⟨j, hj⟩ := Nat.exists_eq_add_of_le hin.1
      have heq : t.recvtypes + 4 * j = t.sendtypes + 4 * i := by omega
      rw [← h i hi j (by omega) (Or.inr heq), ← hrecv j (by omega), heq]
    · rw [t.load32_send, t.wordsAt_compressTypes, narrowed_of_notMem _ (by omega),
        narrowed_apply _ hi, t.nativeForm_sendHandle]

theorem holdsNativeForms_of_noConflict {m : Mem} (h : t.NoConflict m) :
    t.HoldsNativeForms m (compressTypes t m) :=
  (t.holdsNativeForms_iff m).2 fun i hi j hj heq =>
    heq.elim (h.narrow i hi j hj) (h.slot i hi j hj)

/-! ## What the caller gets back -/

/-- Element `j` of the receive array is restored from what restoring the send array left in
slot `j`. -/
theorem recvHandle_restoreTypes_iff (left : Mem) {j : ℕ} (hj : j < t.indeg.toNat)
    (v : BitVec 32) :
    t.recvHandle (restoreTypes t left) j = v.signExtend 64 ↔
      widened (wordsAt 0 left) t.sendWord t.outdeg.toNat (t.recvWord + j) = v := by
  rw [t.recvHandle_eq_iff, t.wordsAt_restoreTypes, widened_even _ hj, widened_odd _ hj]
  constructor
  · exact And.left
  · rintro rfl
    exact ⟨rfl, rfl⟩

/-- If the handles come back, slot `j` of the receive array holds its handle after the send array is
restored. -/
theorem widened_recv_of_holdsSignExtensions {m left : Mem}
    (h : t.HoldsSignExtensions m (restoreTypes t left)) {j : ℕ} (hj : j < t.indeg.toNat) :
    widened (wordsAt 0 left) t.sendWord t.outdeg.toNat (t.recvWord + j) =
      nativeForm (t.recvHandle m j) :=
  (t.recvHandle_restoreTypes_iff left hj _).1 (h.recv j hj)

theorem widen_of_holdsSignExtensions {m left : Mem} (hleft : t.HoldsNativeForms m left)
    (h : t.HoldsSignExtensions m (restoreTypes t left)) {i j : ℕ} (hi : i < t.outdeg.toNat)
    (hj : j < t.indeg.toNat) (heq : t.recvtypes + 4 * j = t.sendtypes + 8 * i) :
    nativeForm (t.recvHandle m j) = nativeForm (t.sendHandle m i) := by
  have hword : t.recvWord + j = t.sendWord + 2 * i := t.words_meet_iff.1 (by omega)
  rw [← t.widened_recv_of_holdsSignExtensions h hj, hword, widened_even _ hi, ← t.load32_send,
    hleft.send i hi]

theorem widenSign_of_holdsSignExtensions {m left : Mem} (hleft : t.HoldsNativeForms m left)
    (h : t.HoldsSignExtensions m (restoreTypes t left)) {i j : ℕ} (hi : i < t.outdeg.toNat)
    (hj : j < t.indeg.toNat) (heq : t.recvtypes + 4 * j = t.sendtypes + 8 * i + 4) :
    nativeForm (t.recvHandle m j) = signWord (nativeForm (t.sendHandle m i)) := by
  have hword : t.recvWord + j = t.sendWord + (2 * i + 1) := t.words_meet_iff.1 (by omega)
  rw [← t.widened_recv_of_holdsSignExtensions h hj, hword, ← Nat.add_assoc, widened_odd _ hi,
    ← t.load32_send, hleft.send i hi]

/-- After the send array is restored, slot `j` of the receive array still holds its handle. -/
theorem widened_recv_of_noConflict {m left : Mem} (h : t.NoConflict m)
    (hleft : t.HoldsNativeForms m left) {j : ℕ} (hj : j < t.indeg.toNat) :
    widened (wordsAt 0 left) t.sendWord t.outdeg.toNat (t.recvWord + j) =
      nativeForm (t.recvHandle m j) := by
  have hs := t.sendtypes_eq
  have hr := t.recvtypes_eq
  by_cases hin : t.sendWord ≤ t.recvWord + j ∧
      t.recvWord + j < t.sendWord + 2 * t.outdeg.toNat
  · obtain ⟨d, hd⟩ := Nat.exists_eq_add_of_le hin.1
    rcases Nat.even_or_odd' d with ⟨i, rfl | rfl⟩
    · have hi : i < t.outdeg.toNat := by omega
      rw [h.widen i hi j hj (by omega), hd, widened_even _ hi, ← t.load32_send, hleft.send i hi]
    · have hi : i < t.outdeg.toNat := by omega
      rw [h.widenSign i hi j hj (by omega), hd, ← Nat.add_assoc, widened_odd _ hi,
        ← t.load32_send, hleft.send i hi]
  · rw [widened_of_notMem _ (by omega), ← t.load32_recv, hleft.recv j hj]

theorem holdsSignExtensions_of_noConflict {m left : Mem} (h : t.NoConflict m)
    (hleft : t.HoldsNativeForms m left) : t.HoldsSignExtensions m (restoreTypes t left) := by
  have hrecv : ∀ j < t.indeg.toNat, t.recvHandle (restoreTypes t left) j =
      (nativeForm (t.recvHandle m j)).signExtend 64 := fun j hj =>
    (t.recvHandle_restoreTypes_iff left hj _).2 (t.widened_recv_of_noConflict h hleft hj)
  refine ⟨fun i hi => ?_, hrecv⟩
  have hs := t.sendtypes_eq
  have hr := t.recvtypes_eq
  obtain ⟨hseven, hreven⟩ := t.words_even
  by_cases hin : t.recvWord ≤ t.sendWord + 2 * i ∧
      t.sendWord + 2 * i < t.recvWord + 2 * t.indeg.toNat
  · -- the element belongs to both arrays
    obtain ⟨d, hd⟩ := Nat.exists_eq_add_of_le hin.1
    obtain ⟨j, rfl⟩ : 2 ∣ d := by omega
    have haddr : t.sendtypes + 8 * i = t.recvtypes + 8 * j := by omega
    have hsame : ∀ m', t.sendHandle m' i = t.recvHandle m' j := by
      intro m'
      rw [sendHandle, recvHandle, haddr]
    rw [hsame, hsame, hrecv j (by omega)]
  · rw [t.sendHandle_eq_iff, t.wordsAt_restoreTypes]
    constructor
    · rw [widened_of_notMem _ (by omega), widened_even _ hi, ← t.load32_send, hleft.send i hi]
    · rw [widened_of_notMem _ (by omega), widened_odd _ hi, ← t.load32_send, hleft.send i hi]

end TypeArrays

end UniMPI
