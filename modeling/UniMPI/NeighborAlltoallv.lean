import UniMPI.Library
import UniMPI.NonblockingCollectives
import UniMPI.Topology

/-!
# The variable neighbor exchange

The slots `neighbor_alltoallv` and `ineighbor_alltoallv` have the signature of their
`w` siblings: displacements of eight bytes and an array of datatypes for each side.
The native functions take int displacements and one datatype for each side, by value.
So the native side reads the halves of the caller's displacements one after the
other, and the address of a datatype array as the datatype.

`neighborAlltoallv_agrees_iff` : the two views agree exactly if the address of each
array happens to be the native form of the handle it repeats, the first displacement
fits an int and every later one follows from it (`Collapses`). With displacements
apart from the datatype arrays that means: all later ones are `0` or all are `-1`, by the
sign of the first (`collapses_iff`).
-/

namespace UniMPI

open ByteMemory

/-! ## The slots and the native prototype -/

/-- The arguments of `neighbor_alltoallv`. `MPI_Aint` is eight bytes wide and aligned too. -/
structure NeighborAlltoallvArgs extends TypeArrayArgs where
  sdispls_aligned : 8 ∣ sdispls
  rdispls_aligned : 8 ∣ rdispls

/-- The width of a handle of the backend. -/
def handleWidth : BackendType → ℕ
  | .openmpi => 64
  | _ => 32

/-- The arguments of the native function, which takes a datatype for each side. -/
structure NativeNeighborArgs (w : ℕ) where
  sendbuf : ℕ
  sendcounts : ℕ
  sdispls : ℕ
  sendtype : BitVec w
  recvbuf : ℕ
  recvcounts : ℕ
  rdispls : ℕ
  recvtype : BitVec w
  comm : BitVec w

/-- What the native function finds in its parameters: where it expects a datatype, the caller has
passed the address of an array, of which it takes the low bits. -/
def NeighborAlltoallvArgs.received (w : ℕ) (a : NeighborAlltoallvArgs) : NativeNeighborArgs w where
  sendbuf := a.sendbuf
  sendcounts := a.sendcounts
  sdispls := a.sdispls
  sendtype := BitVec.ofNat w a.sendtypes
  recvbuf := a.recvbuf
  recvcounts := a.recvcounts
  rdispls := a.rdispls
  recvtype := BitVec.ofNat w a.recvtypes
  comm := a.comm.setWidth w

/-- `mpich_wrap_neighbor_alltoallv`. -/
def wrapNeighborAlltoallv {w : ℕ} (q : CommQueries)
    (mpichNeighborAlltoallv : NativeNeighborArgs w → Mem → Int × Mem) (a : NeighborAlltoallvArgs)
    (m : Mem) : Int × Mem :=
  withNeighborArrays q a.toTypeArrayArgs (mpichNeighborAlltoallv (a.received w)) m

/-- `mpich_wrap_ineighbor_alltoallv`. -/
def wrapIneighborAlltoallv {w : ℕ} (q : CommQueries)
    (mpichIneighborAlltoallv : NativeNeighborArgs w → ℕ → Mem → Int × Mem)
    (a : NeighborAlltoallvArgs) (request : ℕ) (m : Mem) : Int × Mem :=
  withNeighborArrays q a.toTypeArrayArgs (mpichIneighborAlltoallv (a.received w) request) m

/-- A call through one of the two slots. -/
inductive NeighborAlltoallvCall
  | neighborAlltoallv (a : NeighborAlltoallvArgs)
  | ineighborAlltoallv (a : NeighborAlltoallvArgs) (request : ℕ)

namespace NeighborAlltoallvCall

def args : NeighborAlltoallvCall → NeighborAlltoallvArgs
  | neighborAlltoallv a => a
  | ineighborAlltoallv a _ => a

/-- The call over a native function that does `native`. The slots of Open MPI are the native
functions themselves, those of the other backends the adapters. -/
def run (b : BackendType) (q : CommQueries)
    (native : NativeNeighborArgs (handleWidth b) → Mem → Int × Mem) :
    NeighborAlltoallvCall → Mem → Int × Mem
  | neighborAlltoallv a, m =>
    if b = .openmpi then native (a.received _) m else wrapNeighborAlltoallv q native a m
  | ineighborAlltoallv a request, m =>
    if b = .openmpi then native (a.received _) m
    else wrapIneighborAlltoallv q (fun received _ => native received) a request m

/-- The native function is called with these arguments on this memory. -/
def Hands (call : NeighborAlltoallvCall) (b : BackendType) (q : CommQueries) (m : Mem)
    (received : NativeNeighborArgs (handleWidth b)) (handed : Mem) : Prop :=
  ∀ native, (call.run b q native m).1 = (native received handed).1

end NeighborAlltoallvCall

/-! ## Agreement of the two views -/

def NeighborAlltoallvArgs.displs (a : NeighborAlltoallvArgs) : Side → ℕ
  | .send => a.sdispls
  | .recv => a.rdispls

def NeighborAlltoallvArgs.types (a : NeighborAlltoallvArgs) : Side → ℕ
  | .send => a.sendtypes
  | .recv => a.recvtypes

/-- The caller's displacement for neighbor `i`. -/
def NeighborAlltoallvArgs.displ (a : NeighborAlltoallvArgs) (m : Mem) (side : Side) (i : ℕ) :
    BitVec 64 :=
  load64 m (a.displs side + 8 * i)

/-- The caller's datatype for neighbor `i`. -/
def NeighborAlltoallvArgs.handle (a : NeighborAlltoallvArgs) (m : Mem) (side : Side) (i : ℕ) :
    BitVec 64 :=
  load64 m (a.types side + 8 * i)

def NativeNeighborArgs.datatype {w : ℕ} (n : NativeNeighborArgs w) : Side → BitVec w
  | .send => n.sendtype
  | .recv => n.recvtype

def NativeNeighborArgs.displs {w : ℕ} (n : NativeNeighborArgs w) : Side → ℕ
  | .send => n.sdispls
  | .recv => n.rdispls

/-- The native displacement for neighbor `i`. -/
def NativeNeighborArgs.displ {w : ℕ} (n : NativeNeighborArgs w) (m : Mem) (side : Side) (i : ℕ) :
    BitVec 32 :=
  load32 m (n.displs side + 4 * i)

def Topology.degree (top : Topology) : Side → ℕ
  | .send => top.outdegree
  | .recv => top.indegree

/-- Each datatype array repeats one handle. -/
def NeighborAlltoallvArgs.Repeats (a : NeighborAlltoallvArgs) (top : Topology) (m : Mem) : Prop :=
  ∀ side, ∀ i < top.degree side, a.handle m side i = a.handle m side 0

/-- If the native function is called, it reads the caller's displacement for each neighbor, and
receives the native form of the caller's datatype. -/
def NeighborAlltoallvCall.Agrees (call : NeighborAlltoallvCall) (b : BackendType) (q : CommQueries)
    (top : Topology) (m : Mem) : Prop :=
  ∀ received handed, call.Hands b q m received handed → ∀ side, ∀ i < top.degree side,
    (received.displ handed side i).toInt = (call.args.displ m side i).toInt ∧
      received.datatype side = (call.args.handle m side i).setWidth (handleWidth b)

/-! ## What is handed over -/

/-- The memory the native function is called on, if it is called. -/
def NeighborAlltoallvArgs.handed (a : NeighborAlltoallvArgs) (b : BackendType) (q : CommQueries)
    (m : Mem) : Option Mem :=
  if b = .openmpi then some m
  else
    let (rc, indeg, outdeg) := neighborDegree q.constants (q.topology a.comm)
    if rc ≠ q.constants.success then none else some (compressTypes (a.arrays outdeg indeg) m)

/-- The degree query of the adapters does not fail. -/
def NeighborAlltoallvArgs.Reaches (a : NeighborAlltoallvArgs) (b : BackendType) (q : CommQueries) :
    Prop :=
  b = .openmpi ∨ (neighborDegree q.constants (q.topology a.comm)).1 = q.constants.success

theorem NeighborAlltoallvArgs.reaches_iff {a : NeighborAlltoallvArgs} {b : BackendType}
    {q : CommQueries} (m : Mem) : a.Reaches b q ↔ ∃ handed, a.handed b q m = some handed := by
  unfold Reaches handed
  dsimp only
  split_ifs with hopen hrc
  · exact iff_of_true (Or.inl hopen) ⟨m, rfl⟩
  · refine iff_of_false ?_ (by simp)
    rintro (h | h)
    · exact hopen h
    · exact hrc h
  · exact iff_of_true (Or.inr (not_not.1 hrc)) ⟨_, rfl⟩

namespace NeighborAlltoallvCall

variable {b : BackendType} {q : CommQueries} {call : NeighborAlltoallvCall} {m handed : Mem}

theorem run_eq (native : NativeNeighborArgs (handleWidth b) → Mem → Int × Mem) :
    call.run b q native m =
      if b = .openmpi then native (call.args.received _) m
      else withNeighborArrays q call.args.toTypeArrayArgs (native (call.args.received _)) m := by
  cases call with
  | neighborAlltoallv a => rfl
  | ineighborAlltoallv a request => rfl

theorem run_of_handed (h : call.args.handed b q m = some handed)
    (native : NativeNeighborArgs (handleWidth b) → Mem → Int × Mem) :
    (call.run b q native m).1 = (native (call.args.received _) handed).1 := by
  unfold NeighborAlltoallvArgs.handed at h
  rw [run_eq]
  unfold withNeighborArrays withTypeArrays
  split_ifs at h ⊢ with hopen
  · rw [Option.some.inj h]
  · dsimp only at h ⊢
    split_ifs at h ⊢
    rw [Option.some.inj h]

theorem run_of_handed_none (h : call.args.handed b q m = none) :
    ∃ rc, ∀ native, (call.run b q native m).1 = rc := by
  unfold NeighborAlltoallvArgs.handed at h
  dsimp only at h
  split_ifs at h with hopen hrc
  refine ⟨(neighborDegree q.constants (q.topology call.args.comm)).1, fun native => ?_⟩
  rw [run_eq, if_neg hopen]
  unfold withNeighborArrays
  dsimp only
  rw [if_pos hrc]

open Classical in
theorem hands_iff {received : NativeNeighborArgs (handleWidth b)} :
    call.Hands b q m received handed ↔
      received = call.args.received _ ∧ call.args.handed b q m = some handed := by
  constructor
  · intro h
    cases hhanded : call.args.handed b q m with
    | none =>
      obtain ⟨rc, hrc⟩ := run_of_handed_none hhanded
      have hret := (hrc _).symm.trans (h fun _ m => (rc + 1, m))
      dsimp only at hret
      omega
    | some handed' =>
      -- a native function that returns whether it got these arguments and this memory
      have hret := (run_of_handed hhanded _).symm.trans
        (h fun n m => (if n = received ∧ m = handed then 1 else 0, m))
      have hsame : call.args.received _ = received ∧ handed' = handed := by
        by_contra hother
        simp [hother] at hret
      exact ⟨hsame.1.symm, congrArg some hsame.2⟩
  · rintro ⟨rfl, hhanded⟩ native
    exact run_of_handed hhanded native

end NeighborAlltoallvCall

/-! ## Arrays that repeat one handle -/

/-- Compressing an array of one handle only rewrites odd words, with the word before them. -/
theorem narrowed_of_repeats {W : ℕ → BitVec 32} {α n : ℕ} (hα : 2 ∣ α)
    (h : ∀ i < n, W (α + 2 * i) = W α) (x : ℕ) :
    narrowed W α n x = if x % 2 = 1 ∧ α ≤ x ∧ x < α + n then W (x - 1) else W x := by
  unfold narrowed
  by_cases hin : α ≤ x ∧ x < α + n
  · rw [if_pos hin, h (x - α) (by omega)]
    split_ifs with hodd
    · rw [← h ((x - 1 - α) / 2) (by omega), show α + 2 * ((x - 1 - α) / 2) = x - 1 by omega]
    · rw [← h ((x - α) / 2) (by omega), show α + 2 * ((x - α) / 2) = x by omega]
  · rw [if_neg hin, if_neg (by tauto)]

/-- Over arrays of one handle each, the odd int slots get the word before them. -/
theorem TypeArrays.load32_compressTypes_of_repeats (t : TypeArrays) (m : Mem)
    (hsend : ∀ i < t.outdeg.toNat,
      nativeForm (t.sendHandle m i) = nativeForm (t.sendHandle m 0))
    (hrecv : ∀ j < t.indeg.toNat,
      nativeForm (t.recvHandle m j) = nativeForm (t.recvHandle m 0)) (x : ℕ) :
    load32 (compressTypes t m) (4 * x) =
      if x % 2 = 1 ∧ (t.sendtypes ≤ 4 * x ∧ 4 * x < t.sendtypes + 4 * t.outdeg.toNat ∨
        t.recvtypes ≤ 4 * x ∧ 4 * x < t.recvtypes + 4 * t.indeg.toNat)
      then load32 m (4 * (x - 1)) else load32 m (4 * x) := by
  have hs := t.sendtypes_eq
  have hr := t.recvtypes_eq
  obtain ⟨hseven, hreven⟩ := t.words_even
  simp only [t.nativeForm_sendHandle, t.nativeForm_recvHandle, Nat.mul_zero, Nat.add_zero]
    at hsend hrecv
  have hfirst := narrowed_of_repeats hseven hsend
  set W := narrowed (wordsAt 0 m) t.sendWord t.outdeg.toNat with hW
  -- the forward scan of the receive array reads even words
  have heven : ∀ y, 2 ∣ y → W y = wordsAt 0 m y := by
    intro y hy
    rw [hfirst, if_neg (by omega)]
  have hsecond : ∀ j < t.indeg.toNat, W (t.recvWord + 2 * j) = W t.recvWord := by
    intro j hj
    rw [heven _ (by omega), heven _ hreven, hrecv j hj]
  have hword : ∀ m' y, load32 m' (4 * y) = wordsAt 0 m' y := by
    intro m' y
    rw [wordsAt, Nat.zero_add]
  simp only [hword]
  rw [t.wordsAt_compressTypes, ← hW, narrowed_of_repeats hreven hsecond, hfirst x]
  by_cases hslot : x % 2 = 1 ∧ t.recvWord ≤ x ∧ x < t.recvWord + t.indeg.toNat
  · rw [if_pos hslot, heven (x - 1) (by omega), if_pos (by omega)]
  · rw [if_neg hslot]
    exact if_congr (by omega) rfl rfl

/-! ## What the native side reads -/

/-- The address lies in an int slot that an adapter fills. -/
def NeighborAlltoallvArgs.Narrowed (a : NeighborAlltoallvArgs) (b : BackendType) (q : CommQueries)
    (x : ℕ) : Prop :=
  b ≠ .openmpi ∧
    (a.sendtypes ≤ x ∧
        x < a.sendtypes + 4 * (neighborDegree q.constants (q.topology a.comm)).2.2.toNat ∨
      a.recvtypes ≤ x ∧
        x < a.recvtypes + 4 * (neighborDegree q.constants (q.topology a.comm)).2.1.toNat)

theorem NeighborAlltoallvArgs.displs_aligned (a : NeighborAlltoallvArgs) (side : Side) :
    8 ∣ a.displs side := by
  cases side with
  | send => exact a.sdispls_aligned
  | recv => exact a.rdispls_aligned

@[simp] theorem NeighborAlltoallvArgs.received_displs (a : NeighborAlltoallvArgs) (w : ℕ)
    (side : Side) : (a.received w).displs side = a.displs side := by
  cases side with
  | send => rfl
  | recv => rfl

section Reads

variable {a : NeighborAlltoallvArgs} {b : BackendType} {q : CommQueries} {top : Topology}
  {m handed : Mem}

/-- A word of the memory handed over: an odd one in a filled slot is the word before it, any other
is the caller's. -/
theorem load32_of_handed (hanswers : Answers q.constants (q.topology a.comm) top)
    (hrepeats : a.Repeats top m) (h : a.handed b q m = some handed) {x : ℕ} :
    (x % 2 = 1 ∧ a.Narrowed b q (4 * x) → load32 handed (4 * x) = load32 m (4 * (x - 1))) ∧
      (¬(x % 2 = 1 ∧ a.Narrowed b q (4 * x)) → load32 handed (4 * x) = load32 m (4 * x)) := by
  unfold NeighborAlltoallvArgs.handed at h
  unfold NeighborAlltoallvArgs.Narrowed
  split_ifs at h with hopen
  · rw [← Option.some.inj h]
    exact ⟨fun hx => absurd hopen hx.2.1, fun _ => rfl⟩
  dsimp only at h
  split_ifs at h with hrc
  rw [← Option.some.inj h]
  obtain ⟨hin, hout⟩ := neighborDegree_le hanswers
  have hword := (a.arrays _ _).load32_compressTypes_of_repeats m
    (fun i hi => congrArg nativeForm (hrepeats .send i (lt_of_lt_of_le hi hout)))
    (fun j hj => congrArg nativeForm (hrepeats .recv j (lt_of_lt_of_le hj hin))) x
  constructor
  · rintro ⟨hodd, -, hslot⟩
    exact hword.trans (if_pos ⟨hodd, hslot⟩)
  · intro hother
    exact hword.trans (if_neg fun ⟨hodd, hslot⟩ => hother ⟨hodd, hopen, hslot⟩)

/-- The native displacement is the low half of a displacement of the caller if its slot is even or
filled. -/
theorem displ_of_low (hanswers : Answers q.constants (q.topology a.comm) top)
    (hrepeats : a.Repeats top m) (h : a.handed b q m = some handed) (side : Side) (i : ℕ)
    (hlow : i % 2 = 0 ∨ a.Narrowed b q (a.displs side + 4 * i)) :
    (a.received (handleWidth b)).displ handed side i = nativeForm (a.displ m side (i / 2)) := by
  obtain ⟨d, hd⟩ := a.displs_aligned side
  obtain ⟨hfilled, hkept⟩ := load32_of_handed hanswers hrepeats h (x := 2 * d + i)
  have haddr : 8 * d + 4 * i = 4 * (2 * d + i) := by omega
  rw [NativeNeighborArgs.displ, NeighborAlltoallvArgs.received_displs,
    NeighborAlltoallvArgs.displ, nativeForm_load64]
  rw [hd, haddr] at hlow ⊢
  by_cases heven : i % 2 = 0
  · rw [hkept (by omega)]
    congr 1
    omega
  · rw [hfilled ⟨by omega, hlow.resolve_left heven⟩]
    congr 1
    omega

/-- Otherwise it is the high half. -/
theorem displ_of_high (hanswers : Answers q.constants (q.topology a.comm) top)
    (hrepeats : a.Repeats top m) (h : a.handed b q m = some handed) (side : Side) (i : ℕ)
    (hhigh : ¬(i % 2 = 0 ∨ a.Narrowed b q (a.displs side + 4 * i))) :
    (a.received (handleWidth b)).displ handed side i =
      (a.displ m side (i / 2)).extractLsb' 32 32 := by
  obtain ⟨hodd, hother⟩ := not_or.1 hhigh
  obtain ⟨d, hd⟩ := a.displs_aligned side
  obtain ⟨-, hkept⟩ := load32_of_handed hanswers hrepeats h (x := 2 * d + i)
  have haddr : 8 * d + 4 * i = 4 * (2 * d + i) := by omega
  rw [NativeNeighborArgs.displ, NeighborAlltoallvArgs.received_displs,
    NeighborAlltoallvArgs.displ, load64_high]
  rw [hd, haddr] at hother ⊢
  rw [hkept fun hslot => hother hslot.2]
  congr 1
  omega

end Reads

/-! ## Displacements read half by half -/

/-- The value is that of an int. -/
def FitsInt (d : BitVec 64) : Prop :=
  d = (nativeForm d).signExtend 64

/-- The displacement `0` or `-1` with the sign of `d`. -/
def signFill (d : BitVec 64) : BitVec 64 :=
  if d.msb then BitVec.allOnes 64 else 0#64

/-- Every displacement after the first repeats the one of half its index, if that is where its int
slot lies in the low half or the slot is filled, and else is `0` or `-1` with the sign of it. -/
structure Collapses (filled : ℕ → Prop) (d : ℕ → BitVec 64) (n : ℕ) : Prop where
  first : 0 < n → FitsInt (d 0)
  low : ∀ i, 1 ≤ i → i < n → i % 2 = 0 ∨ filled i → d i = d (i / 2)
  high : ∀ i, 1 ≤ i → i < n → ¬(i % 2 = 0 ∨ filled i) → d i = signFill (d (i / 2))

theorem nativeForm_signExtend (v : BitVec 32) : nativeForm (v.signExtend 64) = v := by
  rw [nativeForm, BitVec.setWidth_eq_extractLsb' (by decide), signExtend_low]

theorem fitsInt_signExtend (v : BitVec 32) : FitsInt (v.signExtend 64) := by
  rw [FitsInt, nativeForm_signExtend]

theorem toInt_eq_toInt_iff (v : BitVec 32) (d : BitVec 64) :
    v.toInt = d.toInt ↔ d = v.signExtend 64 := by
  rw [← BitVec.toInt_signExtend_of_le (x := v) (by decide : 32 ≤ 64), eq_comm]
  exact BitVec.toInt_inj

/-- The high half of an int as an int. -/
theorem FitsInt.signExtend_high {d : BitVec 64} (h : FitsInt d) :
    (d.extractLsb' 32 32).signExtend 64 = signFill d := by
  rw [h, UniMPI.signExtend_high, signFill, BitVec.msb_signExtend]
  unfold signWord
  cases (nativeForm d).msb with
  | false => rfl
  | true => rfl

theorem fitsInt_signFill (d : BitVec 64) : FitsInt (signFill d) := by
  unfold FitsInt signFill
  cases d.msb with
  | false => rfl
  | true => rfl

@[simp] theorem signFill_signFill (d : BitVec 64) : signFill (signFill d) = signFill d := by
  unfold signFill
  cases d.msb with
  | false => rfl
  | true => rfl

section Collapses

variable {filled : ℕ → Prop} {d : ℕ → BitVec 64} {n : ℕ}

/-- All of them are ints. -/
theorem Collapses.fitsInt (h : Collapses filled d n) : ∀ i < n, FitsInt (d i) := by
  intro i
  induction i using Nat.strong_induction_on with
  | _ i ih =>
    intro hi
    rcases Nat.eq_zero_or_pos i with rfl | hpos
    · exact h.first hi
    · by_cases hlow : i % 2 = 0 ∨ filled i
      · rw [h.low i hpos hi hlow]
        exact ih (i / 2) (by omega) (by omega)
      · rw [h.high i hpos hi hlow]
        exact fitsInt_signFill _

/-- Reading halves in turn yields the displacements exactly if they collapse. -/
theorem forall_half_iff {half : ℕ → BitVec 32}
    (hlow : ∀ i, i % 2 = 0 ∨ filled i → half i = nativeForm (d (i / 2)))
    (hhigh : ∀ i, ¬(i % 2 = 0 ∨ filled i) → half i = (d (i / 2)).extractLsb' 32 32) :
    (∀ i < n, (half i).toInt = (d i).toInt) ↔ Collapses filled d n := by
  simp only [toInt_eq_toInt_iff]
  constructor
  · intro h
    have hfits : ∀ i < n, FitsInt (d i) := by
      intro i hi
      rw [h i hi]
      exact fitsInt_signExtend _
    refine ⟨hfits 0, fun i hpos hi heven => ?_, fun i hpos hi hodd => ?_⟩
    · rw [h i hi, hlow i heven]
      exact (hfits (i / 2) (by omega)).symm
    · rw [h i hi, hhigh i hodd]
      exact (hfits (i / 2) (by omega)).signExtend_high
  · intro h i hi
    have hfits := h.fitsInt (i / 2) (by omega)
    by_cases heven : i % 2 = 0 ∨ filled i
    · rw [hlow i heven, ← hfits]
      rcases Nat.eq_zero_or_pos i with rfl | hpos
      · rfl
      · exact h.low i hpos hi heven
    · rw [hhigh i heven, hfits.signExtend_high]
      exact h.high i (by omega) hi heven

/-- Without filled slots the first displacement decides. -/
theorem collapses_iff (hfilled : ∀ i < n, ¬filled i) :
    Collapses filled d n ↔
      (0 < n → FitsInt (d 0)) ∧ ∀ i, 1 ≤ i → i < n → d i = signFill (d 0) := by
  constructor
  · intro h
    refine ⟨h.first, fun i => ?_⟩
    induction i using Nat.strong_induction_on with
    | _ i ih =>
      intro hpos hi
      by_cases heven : i % 2 = 0
      · rw [h.low i hpos hi (Or.inl heven)]
        exact ih (i / 2) (by omega) (by omega) (by omega)
      · rw [h.high i hpos hi fun hlow => hlow.elim heven (hfilled i hi)]
        rcases Nat.eq_zero_or_pos (i / 2) with hzero | hhalf
        · rw [hzero]
        · rw [ih (i / 2) (by omega) hhalf (by omega), signFill_signFill]
  · rintro ⟨hfirst, hrest⟩
    refine ⟨hfirst, fun i hpos hi hlow => ?_, fun i hpos hi hhigh => ?_⟩
    · have heven := hlow.resolve_right (hfilled i hi)
      rw [hrest i hpos hi, hrest (i / 2) (by omega) (by omega)]
    · rw [hrest i hpos hi]
      rcases Nat.eq_zero_or_pos (i / 2) with hzero | hhalf
      · rw [hzero]
      · rw [hrest (i / 2) hhalf (by omega), signFill_signFill]

end Collapses

/-! ## Two exchanges -/

/-- Displacements `0` and `4`, and `MPI_INT` for every neighbor. -/
def intsOfTwo : Mem :=
  store64 (store64 (store64 (store64 (store64 (fun _ => 0#8) 0x308 4#64)
    0x500 0x4c000405#64) 0x508 0x4c000405#64) 0x600 0x4c000405#64) 0x608 0x4c000405#64

def exchangeOfTwo : NeighborAlltoallvArgs where
  toTypeArrayArgs := argsOfTwo
  sdispls_aligned := by decide
  rdispls_aligned := by decide

/-- A process with itself for its only neighbor. -/
def queriesOfSelf : CommQueries where
  constants := ⟨1, 2, 0, 4, 5⟩
  commSize _ := 1
  topology _ :=
    { topoTest := some (0, 3)
      cartdimGet := none
      cartGet := none
      graphdimsGet := none
      graphGet := none
      commRank := some (0, 0)
      distGraphNeighborsCount := some (0, 1, 1)
      mallocOk := true }

/-- One array for both sides, at an address that is also the handle of `MPI_FLOAT_INT`. -/
def exchangeOfSelf : NeighborAlltoallvArgs where
  sendbuf := 0x100
  sendcounts := 0x200
  sdispls := 0x300
  sendtypes := 0x8c000000
  recvbuf := 0x400
  recvcounts := 0x200
  rdispls := 0x300
  recvtypes := 0x8c000000
  comm := 0x44000000#64
  sendtypes_aligned := by decide
  recvtypes_aligned := by decide
  sdispls_aligned := by decide
  rdispls_aligned := by decide

def floatIntsOfSelf : Mem :=
  store64 (fun _ => 0#8) 0x8c000000 0xffffffff8c000000#64

/-! ## Results -/

/-- The address of a datatype array, which the native function takes for a datatype, is the native
form of the handle in it. -/
def NeighborAlltoallvArgs.AddressIsHandle (a : NeighborAlltoallvArgs) (b : BackendType) (m : Mem)
    (side : Side) : Prop :=
  BitVec.ofNat (handleWidth b) (a.types side) = (a.handle m side 0).setWidth (handleWidth b)

theorem NeighborAlltoallvArgs.received_datatype (a : NeighborAlltoallvArgs) (w : ℕ) (side : Side) :
    (a.received w).datatype side = BitVec.ofNat w (a.types side) := by
  cases side with
  | send => rfl
  | recv => rfl

section Agrees

variable {b : BackendType} {q : CommQueries} {call : NeighborAlltoallvCall} {top : Topology}
  {m : Mem}

/-- One side of a call that reaches the native function. -/
theorem side_agrees_iff {a : NeighborAlltoallvArgs} {handed : Mem}
    (hanswers : Answers q.constants (q.topology a.comm) top) (hrepeats : a.Repeats top m)
    (h : a.handed b q m = some handed) (side : Side) :
    (∀ i < top.degree side,
      ((a.received (handleWidth b)).displ handed side i).toInt = (a.displ m side i).toInt ∧
        (a.received (handleWidth b)).datatype side =
          (a.handle m side i).setWidth (handleWidth b)) ↔
      (0 < top.degree side → a.AddressIsHandle b m side ∧
        Collapses (fun i => a.Narrowed b q (a.displs side + 4 * i)) (a.displ m side)
          (top.degree side)) := by
  have hhalves := forall_half_iff (n := top.degree side)
    (displ_of_low hanswers hrepeats h side) (displ_of_high hanswers hrepeats h side)
  rw [a.received_datatype, ← hhalves, NeighborAlltoallvArgs.AddressIsHandle]
  constructor
  · intro hside hpos
    exact ⟨(hside 0 hpos).2, fun i hi => (hside i hi).1⟩
  · intro hcond i hi
    obtain ⟨haddr, hdispls⟩ := hcond (by omega)
    rw [hrepeats side i hi]
    exact ⟨hdispls i hi, haddr⟩

theorem agrees_iff_sides (hanswers : Answers q.constants (q.topology call.args.comm) top)
    (hrepeats : call.args.Repeats top m) :
    call.Agrees b q top m ↔ (call.args.Reaches b q → ∀ side, 0 < top.degree side →
      call.args.AddressIsHandle b m side ∧
        Collapses (fun i => call.args.Narrowed b q (call.args.displs side + 4 * i))
          (call.args.displ m side) (top.degree side)) := by
  constructor
  · intro h hreaches side
    obtain ⟨handed, hhanded⟩ := (call.args.reaches_iff m).1 hreaches
    have hcall := h _ handed (NeighborAlltoallvCall.hands_iff.2 ⟨rfl, hhanded⟩) side
    exact (side_agrees_iff hanswers hrepeats hhanded side).1 hcall
  · intro h received handed hhands side
    obtain ⟨rfl, hhanded⟩ := NeighborAlltoallvCall.hands_iff.1 hhands
    have hcond := h ((call.args.reaches_iff m).2 ⟨handed, hhanded⟩) side
    exact (side_agrees_iff hanswers hrepeats hhanded side).2 hcond

/-- For every backend, topology and arguments whose datatype arrays repeat one handle each, the
native function reads the caller's displacements and receives the caller's datatypes if and only if,
on each side with neighbors, the address of the array is the native form of the handle and the
displacements collapse. Where no displacement lies in an array that an adapter narrows, they
collapse if the first fits an int and the others are `0` or `-1` with its sign. -/
theorem neighborAlltoallv_agrees_iff
    (hanswers : Answers q.constants (q.topology call.args.comm) top)
    (hrepeats : call.args.Repeats top m) :
    (call.Agrees b q top m ↔ (call.args.Reaches b q → ∀ side, 0 < top.degree side →
      call.args.AddressIsHandle b m side ∧
        Collapses (fun i => call.args.Narrowed b q (call.args.displs side + 4 * i))
          (call.args.displ m side) (top.degree side))) ∧
    ((∀ side, ∀ i < top.degree side, ¬call.args.Narrowed b q (call.args.displs side + 4 * i)) →
      (call.Agrees b q top m ↔ (call.args.Reaches b q → ∀ side, 0 < top.degree side →
        call.args.AddressIsHandle b m side ∧ FitsInt (call.args.displ m side 0) ∧
          ∀ i, 1 ≤ i → i < top.degree side →
            call.args.displ m side i = signFill (call.args.displ m side 0)))) := by
  have hsides := agrees_iff_sides (b := b) hanswers hrepeats
  refine ⟨hsides, fun hapart => hsides.trans ?_⟩
  refine forall_congr' fun _ => forall_congr' fun side => forall_congr' fun hpos => ?_
  rw [collapses_iff (hapart side)]
  exact and_congr_right fun _ => and_congr_left fun _ => ⟨fun h => h hpos, fun h _ => h⟩

end Agrees

theorem neighborAlltoallv_agrees_iff_self :
    (NeighborAlltoallvCall.neighborAlltoallv exchangeOfSelf).Agrees .mpich queriesOfSelf
      (.distGraph 1 1) floatIntsOfSelf := by
  have hanswers : Answers queriesOfSelf.constants (queriesOfSelf.topology exchangeOfSelf.comm)
      (.distGraph 1 1) := ⟨3, rfl, by decide, by decide, rfl⟩
  have hone : ∀ side, (Topology.distGraph 1 1).degree side = 1 := by
    intro side
    cases side with
    | send => rfl
    | recv => rfl
  have hrepeats : exchangeOfSelf.Repeats (.distGraph 1 1) floatIntsOfSelf := by
    intro side i hi
    obtain rfl := Nat.lt_one_iff.1 (lt_of_lt_of_eq hi (hone side))
    rfl
  have hiff := (@neighborAlltoallv_agrees_iff .mpich queriesOfSelf
    (.neighborAlltoallv exchangeOfSelf) (.distGraph 1 1) floatIntsOfSelf hanswers hrepeats).1
  refine hiff.2 fun _ side _ => ⟨?_, fun _ => ?_, fun i hpos hi => ?_, fun i hpos hi => ?_⟩
  · have haddr : BitVec.ofNat 32 0x8c000000 = (load64 floatIntsOfSelf 0x8c000000).setWidth 32 := by
      decide +kernel
    cases side with
    | send => exact haddr
    | recv => exact haddr
  · have hfits : load64 floatIntsOfSelf 0x300 =
        (nativeForm (load64 floatIntsOfSelf 0x300)).signExtend 64 := by
      decide +kernel
    cases side with
    | send => exact hfits
    | recv => exact hfits
  · rw [hone side] at hi
    omega
  · rw [hone side] at hi
    omega

/-- In a ring of two the native function reads `0` where the caller's second displacement is `4`,
and receives the address `0x500` where the datatype is `MPI_INT`. -/
theorem not_neighborAlltoallv_agrees :
    (¬∀ (b : BackendType) (q : CommQueries) (call : NeighborAlltoallvCall) (top : Topology)
      (m : Mem), Answers q.constants (q.topology call.args.comm) top → call.args.Repeats top m →
      call.Agrees b q top m) ∧
    ∃ handed, (NeighborAlltoallvCall.neighborAlltoallv exchangeOfTwo).Hands .mpich (queriesOfTwo 1)
        intsOfTwo (exchangeOfTwo.received 32) handed ∧
      (exchangeOfTwo.received 32).displ handed .send 1 = 0#32 ∧
      exchangeOfTwo.displ intsOfTwo .send 1 = 4#64 ∧
      (exchangeOfTwo.received 32).sendtype = 0x500#32 ∧
      exchangeOfTwo.handle intsOfTwo .send 0 = 0x4c000405#64 := by
  have hhanded : exchangeOfTwo.handed .mpich (queriesOfTwo 1) intsOfTwo =
      some (compressTypes (argsOfTwo.arrays 2 2) intsOfTwo) := rfl
  have hhands : (NeighborAlltoallvCall.neighborAlltoallv exchangeOfTwo).Hands .mpich
      (queriesOfTwo 1) intsOfTwo (exchangeOfTwo.received 32)
      (compressTypes (argsOfTwo.arrays 2 2) intsOfTwo) :=
    NeighborAlltoallvCall.hands_iff.2 ⟨rfl, hhanded⟩
  have hread : (exchangeOfTwo.received 32).displ (compressTypes (argsOfTwo.arrays 2 2) intsOfTwo)
      .send 1 = 0#32 := by decide +kernel
  have hdispl : exchangeOfTwo.displ intsOfTwo .send 1 = 4#64 := by decide +kernel
  refine ⟨fun hall => ?_, _, hhands, hread, hdispl, rfl, by decide +kernel⟩
  have hrepeats : exchangeOfTwo.Repeats (.cart (gridOfTwo 1)) intsOfTwo := by
    have htwo : ∀ side, ∀ i < 2,
        exchangeOfTwo.handle intsOfTwo side i = 0x4c000405#64 := by
      intro side
      cases side with
      | send => decide +kernel
      | recv => decide +kernel
    intro side i hi
    have hdegree : (Topology.cart (gridOfTwo 1)).degree side = 2 := by
      cases side with
      | send => rfl
      | recv => rfl
    rw [htwo side i (lt_of_lt_of_eq hi hdegree), htwo side 0 (by decide)]
  have hagrees := hall .mpich (queriesOfTwo 1) (.neighborAlltoallv exchangeOfTwo)
    (.cart (gridOfTwo 1)) intsOfTwo (answers_gridOfTwo 1 _) hrepeats
  have hsecond : (0#32).toInt = (4#64).toInt :=
    calc (0#32).toInt
        = ((exchangeOfTwo.received 32).displ (compressTypes (argsOfTwo.arrays 2 2) intsOfTwo)
            .send 1).toInt := by rw [hread]
      _ = (exchangeOfTwo.displ intsOfTwo .send 1).toInt :=
          (hagrees _ _ hhands .send 1 (by decide)).1
      _ = (4#64).toInt := by rw [hdispl]
  exact absurd hsecond (by decide)

end UniMPI
