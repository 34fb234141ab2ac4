import UniMPI.Accesses
import UniMPI.TypeArrayAliasing

/-!
# Arguments that matter

MPI says how many entries of a type array are read, and which arguments are not
significant at all. The adapters of `alltoallw` and `ialltoallw` convert as many
entries as `comm_size` reports, whatever the communicator and the send buffer, and
that of `comm_spawn_multiple` converts `count` infos on every rank.

On an intercommunicator the type arrays have the size of the remote group, while
`comm_size` is that of the local one (`convertsExactly_iff`). The arrays that MPI
declares not significant stay unread exactly if the length the adapter uses is not
positive (`insignificant_unread_iff`).
-/

namespace UniMPI

open ByteMemory CountedLoop

/-! ## The scans of two arrays -/

/-- The arguments through which the calls over two arrays reach memory. -/
inductive TypesArg
  | sendtypes
  | recvtypes
deriving DecidableEq

/-- `withTypeArrays` with its accesses. -/
def withTypeArraysLogged (t : TypeArrays) (native : Mem → Int × Mem) (s : Logged TypesArg) :
    Int × Logged TypesArg :=
  let s := compressInplaceLogged .sendtypes t.sendtypes t.outdeg s
  let s := compressInplaceLogged .recvtypes t.recvtypes t.indeg s
  let (ret, s) := s.call native
  let s := expandInplaceLogged .sendtypes t.sendtypes t.outdeg s
  let s := expandInplaceLogged .recvtypes t.recvtypes t.indeg s
  (ret, s)

theorem mem_withTypeArraysLogged (t : TypeArrays) (native : Mem → Int × Mem)
    (s : Logged TypesArg) :
    ((withTypeArraysLogged t native s).1, (withTypeArraysLogged t native s).2.mem) =
      withTypeArrays t native s.mem := by
  simp [withTypeArraysLogged, withTypeArrays, Logged.call, compressTypes, restoreTypes,
    dtypesCompressInplace, dtypesRestoreInplace]

/-- One array of a call: its argument, address and length. -/
def TypeArrays.side (t : TypeArrays) : TypesArg → ℕ × Int
  | .sendtypes => (t.sendtypes, t.outdeg)
  | .recvtypes => (t.recvtypes, t.indeg)

/-- Each array is reached through its own two scans alone. -/
theorem mem_log_withTypeArraysLogged (t : TypeArrays) (native : Mem → Int × Mem) (m : Mem)
    (p : TypesArg) (e : Access) :
    (p, e) ∈ (withTypeArraysLogged t native (.ofMem m)).2.log ↔
      ScanAccess (t.side p).1 (t.side p).2.toNat e := by
  cases p <;>
    simp [withTypeArraysLogged, mem_log_expandInplaceLogged, mem_log_compressInplaceLogged,
      Logged.call, Logged.ofMem, TypeArrays.side, ScanAccess]

namespace TypeArrayCall

/-- The call with its accesses. -/
def runLogged (q : CommQueries) (native : TypeArrayCall → Mem → Int × Mem) (call : TypeArrayCall)
    (s : Logged TypesArg) : Int × Logged TypesArg :=
  match call with
  | alltoallw a | ialltoallw a _ =>
    let n := q.commSize a.comm
    withTypeArraysLogged (a.arrays n n) (native call) s
  | neighborAlltoallw a | ineighborAlltoallw a _ =>
    let (rc, indeg, outdeg) := neighborDegree q.constants (q.topology a.comm)
    if rc ≠ q.constants.success then (rc, s)
    else withTypeArraysLogged (a.arrays outdeg indeg) (native call) s

/-- Forgetting the log gives the adapter. -/
theorem mem_runLogged (q : CommQueries) (native : TypeArrayCall → Mem → Int × Mem)
    (call : TypeArrayCall) (s : Logged TypesArg) :
    ((call.runLogged q native s).1, (call.runLogged q native s).2.mem) =
      call.run q native s.mem := by
  cases call with
  | alltoallw a => exact mem_withTypeArraysLogged ..
  | ialltoallw a request => exact mem_withTypeArraysLogged ..
  | neighborAlltoallw a =>
    simp only [runLogged, run, wrapNeighborAlltoallw, withNeighborArrays]
    split_ifs
    · rfl
    · exact mem_withTypeArraysLogged ..
  | ineighborAlltoallw a request =>
    simp only [runLogged, run, wrapIneighborAlltoallw, withNeighborArrays]
    split_ifs
    · rfl
    · exact mem_withTypeArraysLogged ..

/-- The arguments of the calls over the group of a communicator. -/
def groupArgs : TypeArrayCall → Option TypeArrayArgs
  | alltoallw a | ialltoallw a _ => some a
  | _ => none

/-- Both arrays of such a call have the length that `comm_size` left. -/
theorem runLogged_of_groupArgs {call : TypeArrayCall} {a : TypeArrayArgs}
    (h : call.groupArgs = some a) (q : CommQueries) (native : TypeArrayCall → Mem → Int × Mem)
    (s : Logged TypesArg) :
    call.runLogged q native s =
      withTypeArraysLogged (a.arrays (q.commSize a.comm) (q.commSize a.comm)) (native call) s := by
  cases call with
  | alltoallw b =>
    obtain rfl := Option.some.inj h
    rfl
  | ialltoallw b request =>
    obtain rfl := Option.some.inj h
    rfl
  | neighborAlltoallw b => cases h
  | ineighborAlltoallw b request => cases h

end TypeArrayCall

/-! ## The entries of a group -/

/-- An intracommunicator, or an intercommunicator as the processes of one side see it. -/
inductive Communicator
  | intra (size : ℕ)
  | inter (localSize remoteSize : ℕ)

/-- What `MPI_Comm_size` reports: the local group. -/
def Communicator.commSize : Communicator → ℕ
  | intra size => size
  | inter localSize _ => localSize

/-- The entries MPI prescribes for the arrays of `alltoallw`: one for each process it exchanges
data with. -/
def Communicator.entries : Communicator → ℕ
  | intra size => size
  | inter _ remoteSize => remoteSize

/-- The two agree exactly on groups of one size. -/
theorem Communicator.commSize_eq_entries_iff (c : Communicator) :
    c.commSize = c.entries ↔
      ∀ localSize remoteSize, c = .inter localSize remoteSize → localSize = remoteSize := by
  cases c with
  | intra size => simp [commSize, entries]
  | inter localSize remoteSize => simp [commSize, entries]

/-- The entries `0` to `size - 1` of an array are converted and nothing beyond them is touched.
Entry `0` already begins with its native form, so narrowing starts at entry `1`. -/
structure ConvertsEntries (log : List (TypesArg × Access)) (p : TypesArg) (base size : ℕ) :
    Prop where
  narrowed : ∀ i, 1 ≤ i → ((p, Access.store (base + 4 * i) 4) ∈ log ↔ i < size)
  widened : ∀ i, (p, Access.store (base + 8 * i) 8) ∈ log ↔ i < size
  within : ∀ e, (p, e) ∈ log → e.Within base (base + 8 * size)

/-- An array is converted over exactly the length of its scans. -/
theorem convertsEntries_iff (t : TypeArrays) (native : Mem → Int × Mem) (m : Mem) (p : TypesArg)
    (size : ℕ) :
    ConvertsEntries (withTypeArraysLogged t native (.ofMem m)).2.log p (t.side p).1 size ↔
      (t.side p).2.toNat = size := by
  have hlog := mem_log_withTypeArraysLogged t native m p
  refine ⟨fun h => ?_, ?_⟩
  · have hsame : ∀ i, i < (t.side p).2.toNat ↔ i < size := by
      intro i
      rw [← h.widened, hlog, scanAccess_widen_iff]
    refine Nat.le_antisymm (Nat.le_of_not_lt fun hlt => ?_) (Nat.le_of_not_lt fun hlt => ?_)
    · exact lt_irrefl _ ((hsame size).1 hlt)
    · exact lt_irrefl _ ((hsame _).2 hlt)
  · rintro rfl
    refine ⟨fun i hi => ?_, fun i => ?_, fun e he => ?_⟩
    · rw [hlog, scanAccess_narrow_iff hi]
    · rw [hlog, scanAccess_widen_iff]
    · exact ((hlog e).1 he).within

/-- The call converts exactly the entries MPI prescribes for the communicator. -/
def ConvertsExactly (q : CommQueries) (native : TypeArrayCall → Mem → Int × Mem)
    (call : TypeArrayCall) (a : TypeArrayArgs) (c : Communicator) (m : Mem) : Prop :=
  ConvertsEntries (call.runLogged q native (.ofMem m)).2.log .sendtypes a.sendtypes c.entries ∧
    ConvertsEntries (call.runLogged q native (.ofMem m)).2.log .recvtypes a.recvtypes c.entries

/-- For every communicator, `alltoallw` and `ialltoallw` convert exactly the prescribed entries if
and only if it is an intracommunicator or its two groups have one size. -/
theorem convertsExactly_iff {q : CommQueries} {call : TypeArrayCall} {a : TypeArrayArgs}
    (hcall : call.groupArgs = some a) (c : Communicator) (hsize : q.commSize a.comm = c.commSize)
    (native : TypeArrayCall → Mem → Int × Mem) (m : Mem) :
    ConvertsExactly q native call a c m ↔
      ∀ localSize remoteSize, c = .inter localSize remoteSize → localSize = remoteSize := by
  set t := a.arrays (q.commSize a.comm) (q.commSize a.comm) with ht
  have hsend := convertsEntries_iff t (native call) m .sendtypes c.entries
  have hrecv := convertsEntries_iff t (native call) m .recvtypes c.entries
  have hlen : (q.commSize a.comm).toNat = c.commSize := by omega
  simp only [ht, TypeArrayArgs.arrays, TypeArrays.side, hlen] at hsend hrecv
  unfold ConvertsExactly
  rw [TypeArrayCall.runLogged_of_groupArgs hcall, ← c.commSize_eq_entries_iff]
  exact (and_congr hsend hrecv).trans (and_self_iff)

/-! ## One local process and two remote ones -/

/-- A local group of one process. -/
def oneLocal : CommQueries where
  constants := ⟨0, 0, 0, 0, 0⟩
  commSize _ := 1
  topology _ := ⟨none, none, none, none, none, none, none, true⟩

/-- Two send types at `0x920` and two receive types at `0x960`. -/
def twoTypesArgs : TypeArrayArgs where
  sendbuf := 0x500
  sendcounts := 0x540
  sdispls := 0x550
  sendtypes := 0x920
  recvbuf := 0x900
  recvcounts := 0x940
  rdispls := 0x950
  recvtypes := 0x960
  comm := 0x84000000#64
  sendtypes_aligned := Dvd.intro 0x124 rfl
  recvtypes_aligned := Dvd.intro 0x12c rfl

theorem convertsExactly_iff_oneLocal :
    ConvertsExactly oneLocal (fun _ m => (0, m)) (.alltoallw twoTypesArgs) twoTypesArgs
        (.inter 1 2) (fun _ => 0#8) ↔
      ∀ localSize remoteSize,
        Communicator.inter 1 2 = .inter localSize remoteSize → localSize = remoteSize :=
  convertsExactly_iff rfl (.inter 1 2) rfl (fun _ m => (0, m)) (fun _ => 0#8)

/-- The second of the two types on either side is left in its 8-byte form. -/
theorem not_convertsExactly_oneLocal :
    oneLocal.commSize twoTypesArgs.comm = (Communicator.inter 1 2).commSize ∧
      ¬ConvertsExactly oneLocal (fun _ m => (0, m)) (.alltoallw twoTypesArgs) twoTypesArgs
        (.inter 1 2) (fun _ => 0#8) := by
  refine ⟨rfl, fun h => ?_⟩
  have hlen := (convertsEntries_iff (twoTypesArgs.arrays 1 1) (fun m => (0, m)) (fun _ => 0#8)
    .sendtypes 2).1 h.1
  exact absurd hlen (by decide)

/-! ## Arguments that are not significant -/

/-- No access goes through the argument. -/
def Unread {π : Type*} (log : List (π × Access)) (p : π) : Prop :=
  ∀ e, (p, e) ∉ log

theorem unread_sendtypes_iff {call : TypeArrayCall} {a : TypeArrayArgs}
    (hcall : call.groupArgs = some a) (q : CommQueries) (native : TypeArrayCall → Mem → Int × Mem)
    (m : Mem) :
    Unread (call.runLogged q native (.ofMem m)).2.log .sendtypes ↔ q.commSize a.comm ≤ 0 := by
  rw [TypeArrayCall.runLogged_of_groupArgs hcall]
  simp only [Unread, mem_log_withTypeArraysLogged, forall_not_scanAccess_iff]
  exact Int.toNat_eq_zero

theorem unread_info_iff (ignore : ℕ) (native : ArrayCall → Mem → Int × Mem) (a : SpawnArgs)
    (m : Mem) :
    Unread ((ArrayCall.commSpawnMultiple a).runLogged ignore native (.ofMem m)).2.log .array ↔
      a.count ≤ 0 := by
  have hlog := (ArrayCall.commSpawnMultiple a).array_mem_runLogged rfl ignore native m
  simp only [Unread, hlog, forall_not_scanAccess_iff]
  exact Int.toNat_eq_zero

/-- The call does the same whatever the value of `count`. -/
def CountUnused (ignore : ℕ) (native : ArrayCall → Mem → Int × Mem) (a : SpawnArgs) (m : Mem) :
    Prop :=
  ∀ count, (ArrayCall.commSpawnMultiple { a with count := count }).runLogged ignore native
    (.ofMem m) = (ArrayCall.commSpawnMultiple a).runLogged ignore native (.ofMem m)

/-- The scans always compare with `count`. -/
theorem not_countUnused (ignore : ℕ) (native : ArrayCall → Mem → Int × Mem) (a : SpawnArgs)
    (m : Mem) : ¬CountUnused ignore native a m := by
  intro h
  have hsame : ∀ count : Int, count ≤ 0 ↔ a.count ≤ 0 := by
    intro count
    rw [← unread_info_iff ignore native a m, ← h count,
      unread_info_iff ignore native { a with count := count } m]
  have h0 := hsame 0
  have h1 := hsame 1
  omega

/-- For every communicator size and rank: with `MPI_IN_PLACE` the send types stay unread exactly if
`comm_size` left no positive number, away from the root the infos stay unread exactly if `count` is
not positive, and `count` is used on every rank. -/
theorem insignificant_unread_iff (inPlace ignore : ℕ) (q : CommQueries)
    (collective : TypeArrayCall → Mem → Int × Mem) (native : ArrayCall → Mem → Int × Mem)
    (m : Mem) :
    (∀ (call : TypeArrayCall) (a : TypeArrayArgs), call.groupArgs = some a →
      ((a.sendbuf = inPlace →
          Unread (call.runLogged q collective (.ofMem m)).2.log .sendtypes) ↔
        (a.sendbuf = inPlace → q.commSize a.comm ≤ 0))) ∧
    (∀ (rank : Int) (a : SpawnArgs),
      ((rank ≠ a.root →
          Unread ((ArrayCall.commSpawnMultiple a).runLogged ignore native (.ofMem m)).2.log
            .array) ↔
        (rank ≠ a.root → a.count ≤ 0))) ∧
    ∀ (rank : Int) (a : SpawnArgs),
      (rank ≠ a.root → CountUnused ignore native a m) ↔ rank = a.root := by
  refine ⟨fun call a hcall => ?_, fun rank a => ?_, fun rank a => ?_⟩
  · exact imp_congr_right fun _ => unread_sendtypes_iff hcall q collective m
  · exact imp_congr_right fun _ => unread_info_iff ignore native a m
  · rw [← not_not (a := rank = a.root)]
    exact imp_congr_right fun _ => iff_of_false (not_countUnused ignore native a m) id

/-- In-place arguments: `MPI_IN_PLACE` as send buffer and no send types. -/
def inPlaceArgs : TypeArrayArgs where
  sendbuf := 0xffffffffffffffff
  sendcounts := 0
  sdispls := 0
  sendtypes := 0
  recvbuf := 0x900
  recvcounts := 0x940
  rdispls := 0x950
  recvtypes := 0x960
  comm := 0x44000000#64
  sendtypes_aligned := dvd_zero 8
  recvtypes_aligned := Dvd.intro 0x12c rfl

/-- One command, spawned by rank `0`. -/
def spawnOne : SpawnArgs where
  count := 1
  commands := 0xa00
  argv := 0
  maxprocs := 0xa40
  info := 0xa80
  root := 0
  comm := 0x44000000#64
  intercomm := 0xac0
  errcodes := 0

/-- An in-place `alltoallw` reads and writes through its null send types, and rank `1` the infos of
a spawn at rank `0`. -/
theorem not_insignificant_unread :
    ¬Unread ((TypeArrayCall.alltoallw inPlaceArgs).runLogged oneLocal (fun _ m => (0, m))
        (.ofMem fun _ => 0#8)).2.log .sendtypes ∧
      (1 : Int) ≠ spawnOne.root ∧
      ¬Unread ((ArrayCall.commSpawnMultiple spawnOne).runLogged 1 (fun _ m => (0, m))
        (.ofMem fun _ => 0#8)).2.log .array := by
  refine ⟨?_, by decide, ?_⟩
  · rw [unread_sendtypes_iff rfl]
    decide
  · rw [unread_info_iff]
    decide

end UniMPI
