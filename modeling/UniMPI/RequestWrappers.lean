import UniMPI.HandleArrays

/-!
# Adapters over one handle array

`waitall`, `testany`, `testsome`, `testall`, `waitany`, `waitsome` and
`startall` hand the backend the caller's request array compressed and expand it
afterwards; `type_create_struct`, `type_struct` and `comm_spawn_multiple` do the
same with one input array. Four of the request adapters then spread the packed
20-byte statuses of the backend over the caller's 24-byte slots.

`ArrayCall` is a call of one of the ten. `ArrayCall.run_requests` says what such a
call does to its array for every backend whatever: the backend sees the native
forms in order, and the array ends as the sign extensions of the ints it left.
`ArrayCall.run_rest` says that elsewhere the call does what the backend did,
followed by the spreading of the statuses.
-/

namespace UniMPI

open ByteMemory CountedLoop

/-! ## Statuses -/

/-- `statuses_expand_inplace`: the `i`-th packed record moves to the `i`-th slot, for `i` from
`n - 1` down. The offsets are exact here and a copy reads before it writes; the `int` products of
the source and an arbitrary `memcpy` are in `statusesExpandInplaceInt`. -/
def statusesExpandInplace (statuses : ℕ) (n : Int) (m : Mem) : Mem :=
  down (fun i m => copy m (statuses + 24 * i) (statuses + 20 * i) 20) n.toNat m

/-- `statuses_writable`: neither `NULL` nor the value of `UNIMPI_STATUSES_IGNORE`. -/
def statusesWritable (ignore statuses : ℕ) : Bool :=
  statuses != 0 && statuses != ignore

theorem statusesExpandInplace_apply_of_notMem (statuses : ℕ) (n : Int) (m : Mem) {x : ℕ}
    (h : x < statuses ∨ statuses + 24 * n.toNat ≤ x) :
    statusesExpandInplace statuses n m x = m x := by
  refine down_invariant (P := fun _ t => t x = m x) _ m rfl ?_
  intro i t hi ht
  rw [copy_apply_of_notMem t (by omega), ht]

/-- What the status slots end as depends on them alone. -/
theorem statusesExpandInplace_agreeOn {statuses : ℕ} {n : Int} {m m' : Mem}
    (h : AgreeOn statuses (statuses + 24 * n.toNat) m m') :
    AgreeOn statuses (statuses + 24 * n.toNat) (statusesExpandInplace statuses n m)
      (statusesExpandInplace statuses n m') := by
  refine down_relation (R := AgreeOn statuses (statuses + 24 * n.toNat)) _ h ?_
  intro i t t' hi ht x hlo hhi
  unfold copy
  split_ifs
  · exact ht _ (by omega) (by omega)
  · exact ht x hlo hhi

/-! ## The adapters -/

/-- The native call between compressing and expanding the requests. -/
def withRequests (requests : ℕ) (n : Int) (native : Mem → Int × Mem) (m : Mem) : Int × Mem :=
  let (ret, m) := native (reqsCompressInplace requests n m)
  (ret, reqsExpandInplace requests n m)

/-- The native call between compressing and restoring an input array. -/
def withTypes (types : ℕ) (n : Int) (native : Mem → Int × Mem) (m : Mem) : Int × Mem :=
  let (ret, m) := native (dtypesCompressInplace types n m)
  (ret, dtypesRestoreInplace types n m)

/-- The statuses are spread when the caller gave a real array. -/
def expandStatuses (ignore statuses : ℕ) (n : Int) (m : Mem) : Mem :=
  if statusesWritable ignore statuses then statusesExpandInplace statuses n m else m

/-- `mpich_wrap_waitall`. -/
def wrapWaitall (mpichWaitall : Int → ℕ → ℕ → Mem → Int × Mem) (ignore : ℕ) (count : Int)
    (requests statuses : ℕ) (m : Mem) : Int × Mem :=
  let (ret, m) := withRequests requests count (mpichWaitall count requests statuses) m
  (ret, expandStatuses ignore statuses count m)

/-- `mpich_wrap_testany`. -/
def wrapTestany (mpichTestany : Int → ℕ → ℕ → ℕ → ℕ → Mem → Int × Mem) (count : Int)
    (requests index flag status : ℕ) (m : Mem) : Int × Mem :=
  withRequests requests count (mpichTestany count requests index flag status) m

/-- `mpich_wrap_testsome`: as many statuses as `*outcount` says after the call. -/
def wrapTestsome (mpichTestsome : Int → ℕ → ℕ → ℕ → ℕ → Mem → Int × Mem) (ignore : ℕ)
    (incount : Int) (requests outcount indices statuses : ℕ) (m : Mem) : Int × Mem :=
  let (ret, m) :=
    withRequests requests incount (mpichTestsome incount requests outcount indices statuses) m
  (ret, expandStatuses ignore statuses (load32 m outcount).toInt m)

/-- `mpich_wrap_testall`. -/
def wrapTestall (mpichTestall : Int → ℕ → ℕ → ℕ → Mem → Int × Mem) (ignore : ℕ) (count : Int)
    (requests flag statuses : ℕ) (m : Mem) : Int × Mem :=
  let (ret, m) := withRequests requests count (mpichTestall count requests flag statuses) m
  (ret, expandStatuses ignore statuses count m)

/-- `mpich_wrap_waitany`. -/
def wrapWaitany (mpichWaitany : Int → ℕ → ℕ → ℕ → Mem → Int × Mem) (count : Int)
    (requests index status : ℕ) (m : Mem) : Int × Mem :=
  withRequests requests count (mpichWaitany count requests index status) m

/-- `mpich_wrap_waitsome`. -/
def wrapWaitsome (mpichWaitsome : Int → ℕ → ℕ → ℕ → ℕ → Mem → Int × Mem) (ignore : ℕ)
    (incount : Int) (requests outcount indices statuses : ℕ) (m : Mem) : Int × Mem :=
  let (ret, m) :=
    withRequests requests incount (mpichWaitsome incount requests outcount indices statuses) m
  (ret, expandStatuses ignore statuses (load32 m outcount).toInt m)

/-- `mpich_wrap_startall`. -/
def wrapStartall (mpichStartall : Int → ℕ → Mem → Int × Mem) (count : Int) (requests : ℕ)
    (m : Mem) : Int × Mem :=
  withRequests requests count (mpichStartall count requests) m

/-- `mpich_wrap_type_create_struct`. -/
def wrapTypeCreateStruct (mpichTypeCreateStruct : Int → ℕ → ℕ → ℕ → ℕ → Mem → Int × Mem)
    (count : Int) (blocklengths displacements types newtype : ℕ) (m : Mem) : Int × Mem :=
  withTypes types count (mpichTypeCreateStruct count blocklengths displacements types newtype) m

/-- `mpich_wrap_type_struct`. -/
def wrapTypeStruct (mpichTypeStruct : Int → ℕ → ℕ → ℕ → ℕ → Mem → Int × Mem) (count : Int)
    (blocklengths displacements types newtype : ℕ) (m : Mem) : Int × Mem :=
  withTypes types count (mpichTypeStruct count blocklengths displacements types newtype) m

/-- The arguments of `comm_spawn_multiple`. -/
structure SpawnArgs where
  count : Int
  commands : ℕ
  argv : ℕ
  maxprocs : ℕ
  info : ℕ
  root : Int
  comm : BitVec 64
  intercomm : ℕ
  errcodes : ℕ

/-- `mpich_wrap_comm_spawn_multiple`: the handle array is that of the infos. -/
def wrapCommSpawnMultiple (mpichCommSpawnMultiple : SpawnArgs → Mem → Int × Mem) (a : SpawnArgs)
    (m : Mem) : Int × Mem :=
  withTypes a.info a.count (mpichCommSpawnMultiple a) m

/-! ## The ten calls -/

/-- A call of one of the adapters. -/
inductive ArrayCall
  | waitall (count : Int) (requests statuses : ℕ)
  | testany (count : Int) (requests index flag status : ℕ)
  | testsome (incount : Int) (requests outcount indices statuses : ℕ)
  | testall (count : Int) (requests flag statuses : ℕ)
  | waitany (count : Int) (requests index status : ℕ)
  | waitsome (incount : Int) (requests outcount indices statuses : ℕ)
  | startall (count : Int) (requests : ℕ)
  | typeCreateStruct (count : Int) (blocklengths displacements types newtype : ℕ)
  | typeStruct (count : Int) (blocklengths displacements types newtype : ℕ)
  | commSpawnMultiple (a : SpawnArgs)

/-- How many statuses a call spreads: a count it was given, or what it reads after the call. -/
inductive StatusCount
  | given (n : Int)
  | outcount (a : ℕ)

def StatusCount.value : StatusCount → Mem → Int
  | given n, _ => n
  | outcount a, m => (load32 m a).toInt

namespace ArrayCall

/-- The call over a backend whose functions do `native` on the arguments they are passed. -/
def run (ignore : ℕ) (native : ArrayCall → Mem → Int × Mem) : ArrayCall → Mem → Int × Mem
  | waitall count requests statuses =>
    wrapWaitall (fun n r s => native (waitall n r s)) ignore count requests statuses
  | testany count requests index flag status =>
    wrapTestany (fun n r i f s => native (testany n r i f s)) count requests index flag status
  | testsome incount requests outcount indices statuses =>
    wrapTestsome (fun n r o i s => native (testsome n r o i s)) ignore incount requests outcount
      indices statuses
  | testall count requests flag statuses =>
    wrapTestall (fun n r f s => native (testall n r f s)) ignore count requests flag statuses
  | waitany count requests index status =>
    wrapWaitany (fun n r i s => native (waitany n r i s)) count requests index status
  | waitsome incount requests outcount indices statuses =>
    wrapWaitsome (fun n r o i s => native (waitsome n r o i s)) ignore incount requests outcount
      indices statuses
  | startall count requests => wrapStartall (fun n r => native (startall n r)) count requests
  | typeCreateStruct count blocklengths displacements types newtype =>
    wrapTypeCreateStruct (fun n b d t o => native (typeCreateStruct n b d t o)) count blocklengths
      displacements types newtype
  | typeStruct count blocklengths displacements types newtype =>
    wrapTypeStruct (fun n b d t o => native (typeStruct n b d t o)) count blocklengths
      displacements types newtype
  | commSpawnMultiple a => wrapCommSpawnMultiple (fun a => native (commSpawnMultiple a)) a

/-- The handle array of the call. -/
def array : ArrayCall → ℕ
  | waitall _ requests _ | testany _ requests _ _ _ | testsome _ requests _ _ _
  | testall _ requests _ _ | waitany _ requests _ _ | waitsome _ requests _ _ _
  | startall _ requests => requests
  | typeCreateStruct _ _ _ types _ | typeStruct _ _ _ types _ => types
  | commSpawnMultiple a => a.info

/-- The length of the handle array. -/
def count : ArrayCall → Int
  | waitall n _ _ | testany n _ _ _ _ | testsome n _ _ _ _ | testall n _ _ _ | waitany n _ _ _
  | waitsome n _ _ _ _ | startall n _ | typeCreateStruct n _ _ _ _ | typeStruct n _ _ _ _ => n
  | commSpawnMultiple a => a.count

/-- The status array of the call with its length, for the calls that spread it. -/
def statuses : ArrayCall → Option (ℕ × StatusCount)
  | waitall count _ statuses | testall count _ _ statuses => some (statuses, .given count)
  | testsome _ _ outcount _ statuses | waitsome _ _ outcount _ statuses =>
    some (statuses, .outcount outcount)
  | _ => none

/-- The memory after the statuses are spread. -/
def materialize (ignore : ℕ) (call : ArrayCall) (m : Mem) : Mem :=
  match call.statuses with
  | some (statuses, n) => expandStatuses ignore statuses (n.value m) m
  | none => m

theorem materialize_none {ignore : ℕ} {call : ArrayCall} {m : Mem} (h : call.statuses = none) :
    call.materialize ignore m = m := by
  simp only [materialize, h]

theorem materialize_some {ignore : ℕ} {call : ArrayCall} {m : Mem} {statuses : ℕ}
    {n : StatusCount} (h : call.statuses = some (statuses, n)) :
    call.materialize ignore m = expandStatuses ignore statuses (n.value m) m := by
  simp only [materialize, h]

/-- Every adapter is the native call with the same arguments between the two scans, then the
spreading of statuses. -/
theorem run_eq (ignore : ℕ) (native : ArrayCall → Mem → Int × Mem) (call : ArrayCall) (m : Mem) :
    call.run ignore native m =
      let r := native call (compressInplace call.array call.count m)
      (r.1, call.materialize ignore (expandInplace call.array call.count r.2)) := by
  cases call <;> rfl

/-! ## The handle array -/

/-- The `n` 8-byte handles from `base` on. -/
def handles (m : Mem) (base n : ℕ) : List (BitVec 64) :=
  (List.range n).map fun i => load64 m (base + 8 * i)

/-- The `n` int slots from `base` on. -/
def ints (m : Mem) (base n : ℕ) : List (BitVec 32) :=
  (List.range n).map fun i => load32 m (base + 4 * i)

/-- The address lies in the handle array. -/
def Covers (call : ArrayCall) (x : ℕ) : Prop :=
  call.array ≤ x ∧ x < call.array + 8 * call.count.toNat

/-- A real status array lies apart from the handle array, and so does the count it is read with. -/
def StatusesApart (ignore : ℕ) (call : ArrayCall) (m : Mem) : Prop :=
  ∀ statuses n, call.statuses = some (statuses, n) → statusesWritable ignore statuses →
    (statuses + 24 * (n.value m).toNat ≤ call.array ∨
      call.array + 8 * call.count.toNat ≤ statuses) ∧
    ∀ a, n = .outcount a → a + 4 ≤ call.array ∨ call.array + 8 * call.count.toNat ≤ a

/-- The native call starts from the native forms in order, and from the caller's memory
elsewhere. -/
theorem ints_compressInplace (call : ArrayCall) (m : Mem) :
    ints (compressInplace call.array call.count m) call.array call.count.toNat =
      (handles m call.array call.count.toNat).map nativeForm := by
  unfold ints handles
  rw [List.map_map]
  refine List.map_congr_left fun i hi => ?_
  exact load32_compressInplace _ _ _ (List.mem_range.1 hi)

theorem compressInplace_of_not_covers {call : ArrayCall} (m : Mem) {x : ℕ} (hx : ¬call.Covers x) :
    compressInplace call.array call.count m x = m x := by
  unfold Covers at hx
  exact compressInplace_apply_of_notMem _ _ m (by omega)

theorem expandInplace_of_not_covers {call : ArrayCall} (m : Mem) {x : ℕ} (hx : ¬call.Covers x) :
    expandInplace call.array call.count m x = m x := by
  unfold Covers at hx
  exact expandInplace_apply_of_notMem _ _ m (by omega)

/-! ## The statuses and the handle array -/

theorem StatusesApart.value_eq {ignore : ℕ} {call : ArrayCall} {m m' : Mem}
    (h : call.StatusesApart ignore m) (hagree : ∀ x, ¬call.Covers x → m' x = m x)
    {statuses : ℕ} {n : StatusCount} (hs : call.statuses = some (statuses, n))
    (hw : statusesWritable ignore statuses) : n.value m' = n.value m := by
  cases n with
  | given n => rfl
  | outcount a =>
    have hapart := (h statuses _ hs hw).2 a rfl
    have hcell : AgreeOn a (a + 4) m' m := by
      intro x hlo hhi
      refine hagree x ?_
      unfold Covers
      omega
    simp only [StatusCount.value]
    rw [hcell.load32_eq le_rfl le_rfl]

theorem StatusesApart.of_agree {ignore : ℕ} {call : ArrayCall} {m m' : Mem}
    (h : call.StatusesApart ignore m) (hagree : ∀ x, ¬call.Covers x → m' x = m x) :
    call.StatusesApart ignore m' := by
  intro statuses n hs hw
  rw [h.value_eq hagree hs hw]
  exact h statuses n hs hw

/-- Spreading the statuses changes no byte outside a real status array. -/
theorem materialize_apply_of_notMem {ignore : ℕ} {call : ArrayCall} {m : Mem} {x : ℕ}
    (h : ∀ statuses n, call.statuses = some (statuses, n) → statusesWritable ignore statuses →
      x < statuses ∨ statuses + 24 * (n.value m).toNat ≤ x) :
    call.materialize ignore m x = m x := by
  cases hs : call.statuses with
  | none => rw [materialize_none hs]
  | some p =>
    obtain ⟨statuses, n⟩ := p
    rw [materialize_some hs]
    unfold expandStatuses
    split_ifs with hw
    · exact statusesExpandInplace_apply_of_notMem _ _ m (h statuses n hs hw)
    · rfl

/-- Spreading the statuses leaves the handle array alone. -/
theorem materialize_of_covers {ignore : ℕ} {call : ArrayCall} {m : Mem}
    (h : call.StatusesApart ignore m) {x : ℕ} (hx : call.Covers x) :
    call.materialize ignore m x = m x := by
  refine materialize_apply_of_notMem fun statuses n hs hw => ?_
  have hapart := (h statuses n hs hw).1
  unfold Covers at hx
  omega

/-- What spreading the statuses does elsewhere does not depend on the handle array. -/
theorem materialize_congr {ignore : ℕ} {call : ArrayCall} {m m' : Mem}
    (h : call.StatusesApart ignore m) (hagree : ∀ x, ¬call.Covers x → m' x = m x) {x : ℕ}
    (hx : ¬call.Covers x) : call.materialize ignore m' x = call.materialize ignore m x := by
  cases hs : call.statuses with
  | none => rw [materialize_none hs, materialize_none hs, hagree x hx]
  | some p =>
    obtain ⟨statuses, n⟩ := p
    rw [materialize_some hs, materialize_some hs]
    unfold expandStatuses
    split_ifs with hw
    · rw [h.value_eq hagree hs hw]
      have hapart := (h statuses n hs hw).1
      have hslots : AgreeOn statuses (statuses + 24 * (n.value m).toNat) m' m := by
        intro y hlo hhi
        refine hagree y ?_
        unfold Covers
        omega
      by_cases hin : statuses ≤ x ∧ x < statuses + 24 * (n.value m).toNat
      · exact statusesExpandInplace_agreeOn hslots x hin.1 hin.2
      · rw [statusesExpandInplace_apply_of_notMem _ _ m' (by omega),
          statusesExpandInplace_apply_of_notMem _ _ m (by omega), hagree x hx]
    · exact hagree x hx

/-! ## What a call does -/

/-- Element `i` of the array ends as the sign extension of the int the backend left in slot `i`. -/
theorem run_handle {ignore : ℕ} {native : ArrayCall → Mem → Int × Mem} {call : ArrayCall}
    {m : Mem}
    (h : call.StatusesApart ignore (native call (compressInplace call.array call.count m)).2)
    {i : ℕ} (hi : i < call.count.toNat) :
    load64 (call.run ignore native m).2 (call.array + 8 * i) =
      (load32 (native call (compressInplace call.array call.count m)).2
        (call.array + 4 * i)).signExtend 64 := by
  rw [run_eq]
  set left := (native call (compressInplace call.array call.count m)).2
  have hm := h.of_agree fun x hx => expandInplace_of_not_covers left hx
  have hagree : AgreeOn call.array (call.array + 8 * call.count.toNat)
      (call.materialize ignore (expandInplace call.array call.count left))
      (expandInplace call.array call.count left) := fun x hlo hhi =>
    materialize_of_covers hm ⟨hlo, hhi⟩
  exact (hagree.load64_eq (by omega) (by omega)).trans (load64_expandInplace _ _ _ hi)

/-- The array ends as the sign extensions of the ints the backend left. -/
theorem run_requests {ignore : ℕ} {native : ArrayCall → Mem → Int × Mem} {call : ArrayCall}
    {m : Mem}
    (h : call.StatusesApart ignore (native call (compressInplace call.array call.count m)).2) :
    handles (call.run ignore native m).2 call.array call.count.toNat =
      (ints (native call (compressInplace call.array call.count m)).2 call.array
        call.count.toNat).map (BitVec.signExtend 64) := by
  unfold ints handles
  rw [List.map_map]
  exact List.map_congr_left fun i hi => run_handle h (List.mem_range.1 hi)

/-- Elsewhere the call does what the backend did, then spreads the statuses. -/
theorem run_rest {ignore : ℕ} {native : ArrayCall → Mem → Int × Mem} {call : ArrayCall}
    {m : Mem}
    (h : call.StatusesApart ignore (native call (compressInplace call.array call.count m)).2)
    {x : ℕ} (hx : ¬call.Covers x) :
    (call.run ignore native m).2 x =
      call.materialize ignore (native call (compressInplace call.array call.count m)).2 x := by
  rw [run_eq]
  exact materialize_congr h (fun y hy => expandInplace_of_not_covers _ hy) hx

end ArrayCall

end UniMPI
