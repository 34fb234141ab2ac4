import UniMPI.StatusAccesses

/-!
# Entries an adapter owes its caller

Widening an array replaces every entry by the sign extension of an int slot, so an
entry survives it exactly if it is the sign extension of what that slot holds.

`type_create_struct`, `type_struct` and `comm_spawn_multiple` narrow and widen an
array their caller declared `const`: it comes back as it was exactly if every handle
is the sign extension of its own low half (`preservesInput_iff`).
`type_get_contents` widens all `max_datatypes` entries of its output array, whatever
number of them the backend wrote. The written ones are right, an entry of the tail
survives exactly if it is the sign extension of an int slot of the first half
(`typeGetContents_iff`).
-/

namespace UniMPI

open ByteMemory

/-! ## Const input arrays -/

namespace ArrayCall

/-- The calls whose handle array is a `const` input. -/
def ConstInput : ArrayCall → Prop
  | typeCreateStruct .. | typeStruct .. | commSpawnMultiple _ => True
  | _ => False

variable {ignore : ℕ} {native : ArrayCall → Mem → Int × Mem} {call : ArrayCall} {m : Mem}

theorem ConstInput.statuses_eq (h : call.ConstInput) : call.statuses = none := by
  cases call with
  | typeCreateStruct => rfl
  | typeStruct => rfl
  | commSpawnMultiple => rfl
  | _ => exact h.elim

theorem ConstInput.statusesApart (h : call.ConstInput) (m : Mem) :
    call.StatusesApart ignore m := by
  intro statuses n hs
  rw [h.statuses_eq] at hs
  cases hs

/-- The backend, too, leaves a `const` array as it finds it. -/
def LeavesInput (native : ArrayCall → Mem → Int × Mem) (call : ArrayCall) (m : Mem) : Prop :=
  ∀ x, call.Covers x → call.left native m x = compressInplace call.array call.count m x

/-- Every element of the caller's array is bitwise what it was before the call. -/
def PreservesInput (ignore : ℕ) (native : ArrayCall → Mem → Int × Mem) (call : ArrayCall)
    (m : Mem) : Prop :=
  ∀ i < call.count.toNat, load64 (call.run ignore native m).2 (call.array + 8 * i) =
    load64 m (call.array + 8 * i)

/-- An input comes back as the sign extensions of the native forms. -/
theorem ConstInput.run_handle (h : call.ConstInput) (hleaves : call.LeavesInput native m) {i : ℕ}
    (hi : i < call.count.toNat) :
    load64 (call.run ignore native m).2 (call.array + 8 * i) =
      (nativeForm (load64 m (call.array + 8 * i))).signExtend 64 := by
  have hslots : AgreeOn call.array (call.array + 8 * call.count.toNat) (call.left native m)
      (compressInplace call.array call.count m) := fun x hlo hhi => hleaves x ⟨hlo, hhi⟩
  have hslot := hslots.load32_eq (a := call.array + 4 * i) (by omega) (by omega)
  rw [load32_compressInplace _ _ _ hi] at hslot
  rw [ArrayCall.run_handle (h.statusesApart _) hi, ← hslot]
  rfl

/-- For every array of handles, the three calls preserve it exactly if each handle is the sign
extension of its low half. -/
theorem preservesInput_iff (hconst : call.ConstInput) (hleaves : call.LeavesInput native m) :
    call.PreservesInput ignore native m ↔ ∀ i < call.count.toNat,
      load64 m (call.array + 8 * i) =
        (nativeForm (load64 m (call.array + 8 * i))).signExtend 64 := by
  unfold PreservesInput
  refine forall₂_congr fun i hi => ?_
  rw [hconst.run_handle hleaves hi, eq_comm]

/-! ## A handle with a stale upper half -/

/-- `type_create_struct` of one type at `0x700`. -/
def structOfOne : ArrayCall :=
  .typeCreateStruct 1 0x720 0x740 0x700 0x760

/-- A 4-byte write of `MPI_INT` into an 8-byte variable that held all ones. -/
def staleUpperHalf : Mem :=
  store32 (fun _ => 0xff#8) 0x700 0x4c000405#32

theorem leavesInput_refuse (call : ArrayCall) (m : Mem) : call.LeavesInput refuse m :=
  fun _ _ => rfl

theorem preservesInput_iff_stale :
    structOfOne.PreservesInput 1 refuse staleUpperHalf ↔ ∀ i < structOfOne.count.toNat,
      load64 staleUpperHalf (structOfOne.array + 8 * i) =
        (nativeForm (load64 staleUpperHalf (structOfOne.array + 8 * i))).signExtend 64 :=
  preservesInput_iff trivial (leavesInput_refuse _ _)

/-- The handle comes back with a zero upper half. -/
theorem not_preservesInput_stale :
    structOfOne.ConstInput ∧ structOfOne.LeavesInput refuse staleUpperHalf ∧
      ¬structOfOne.PreservesInput 1 refuse staleUpperHalf := by
  have hconst : structOfOne.ConstInput := trivial
  refine ⟨hconst, leavesInput_refuse _ _, fun h => ?_⟩
  have hback := h 0 (by decide)
  rw [hconst.run_handle (leavesInput_refuse _ _) (by decide)] at hback
  revert hback
  decide

end ArrayCall

/-! ## The contents of a datatype -/

/-- The arguments of `type_get_contents`. -/
structure TypeContentsArgs where
  datatype : BitVec 64
  maxIntegers : Int
  maxAddresses : Int
  maxDatatypes : Int
  integers : ℕ
  addresses : ℕ
  datatypes : ℕ

/-- `mpich_wrap_type_get_contents`: on success all `max_datatypes` entries are widened. -/
def wrapTypeGetContents (success : Int) (mpichTypeGetContents : TypeContentsArgs → Mem → Int × Mem)
    (a : TypeContentsArgs) (m : Mem) : Int × Mem :=
  let (ret, m) := mpichTypeGetContents a m
  if ret = success then (ret, dtypesRestoreInplace a.datatypes a.maxDatatypes m) else (ret, m)

namespace TypeContentsArgs

variable {success : Int} {native : TypeContentsArgs → Mem → Int × Mem} {a : TypeContentsArgs}
  {m : Mem} {handle : ℕ → BitVec 32} {k : ℕ}

/-- The backend succeeds, writes `k` native handles at the start of the array and leaves the rest of
it alone. -/
structure Returns (success : Int) (native : TypeContentsArgs → Mem → Int × Mem)
    (a : TypeContentsArgs) (m : Mem) (handle : ℕ → BitVec 32) (k : ℕ) : Prop where
  fits : k ≤ a.maxDatatypes.toNat
  ret : (native a m).1 = success
  written : ∀ i < k, load32 (native a m).2 (a.datatypes + 4 * i) = handle i
  rest : AgreeOn (a.datatypes + 4 * k) (a.datatypes + 8 * a.maxDatatypes.toNat) (native a m).2 m

/-- The first `k` entries are the widened handles in order and the others are unchanged. -/
structure DeliversContents (success : Int) (native : TypeContentsArgs → Mem → Int × Mem)
    (a : TypeContentsArgs) (m : Mem) (handle : ℕ → BitVec 32) (k : ℕ) : Prop where
  delivered : ∀ i < k, load64 (wrapTypeGetContents success native a m).2 (a.datatypes + 8 * i) =
    (handle i).signExtend 64
  kept : ∀ i, k ≤ i → i < a.maxDatatypes.toNat →
    load64 (wrapTypeGetContents success native a m).2 (a.datatypes + 8 * i) =
      load64 m (a.datatypes + 8 * i)

/-- After a success, every entry is the widened int slot. -/
theorem Returns.entry (h : Returns success native a m handle k) {i : ℕ}
    (hi : i < a.maxDatatypes.toNat) :
    load64 (wrapTypeGetContents success native a m).2 (a.datatypes + 8 * i) =
      (load32 (native a m).2 (a.datatypes + 4 * i)).signExtend 64 := by
  unfold wrapTypeGetContents
  simp only [h.ret, if_true]
  exact load64_expandInplace _ _ _ hi

/-- The entries the backend wrote are always right. -/
theorem Returns.delivered (h : Returns success native a m handle k) {i : ℕ} (hi : i < k) :
    load64 (wrapTypeGetContents success native a m).2 (a.datatypes + 8 * i) =
      (handle i).signExtend 64 := by
  rw [h.entry (lt_of_lt_of_le hi h.fits), h.written i hi]

/-- An entry of the tail becomes the widened int slot of its index, as the caller left it. -/
theorem Returns.tail (h : Returns success native a m handle k) {i : ℕ} (hk : k ≤ i)
    (hi : i < a.maxDatatypes.toNat) :
    load64 (wrapTypeGetContents success native a m).2 (a.datatypes + 8 * i) =
      (load32 m (a.datatypes + 4 * i)).signExtend 64 := by
  rw [h.entry hi, h.rest.load32_eq (by omega) (by omega)]

/-- For every `max_datatypes` and every number `k` of returned handles, `type_get_contents` delivers
them and keeps the tail exactly if each entry of the tail is the sign extension of the int slot of
its index. -/
theorem typeGetContents_iff (h : Returns success native a m handle k) :
    DeliversContents success native a m handle k ↔
      ∀ i, k ≤ i → i < a.maxDatatypes.toNat →
        load64 m (a.datatypes + 8 * i) = (load32 m (a.datatypes + 4 * i)).signExtend 64 := by
  constructor
  · intro hd i hk hi
    rw [← hd.kept i hk hi, h.tail hk hi]
  · intro htail
    exact ⟨fun i hi => h.delivered hi, fun i hk hi => by rw [h.tail hk hi, htail i hk hi]⟩

/-! ## Room for two types, one returned -/

/-- Room for two datatypes at `0x800`. -/
def roomForTwo : TypeContentsArgs where
  datatype := 0x8c000000#64
  maxIntegers := 0
  maxAddresses := 0
  maxDatatypes := 2
  integers := 0
  addresses := 0
  datatypes := 0x800

/-- The caller's array holds `MPI_DATATYPE_NULL` twice. -/
def nullTypes : Mem :=
  store64 (store64 (fun _ => 0#8) 0x800 0x0c000000#64) 0x808 0x0c000000#64

/-- A backend that returns `MPI_INT`. -/
def returnInt (a : TypeContentsArgs) (m : Mem) : Int × Mem :=
  (0, store32 m a.datatypes 0x4c000405#32)

theorem returns_returnInt :
    Returns 0 returnInt roomForTwo nullTypes (fun _ => 0x4c000405#32) 1 where
  fits := by decide
  ret := rfl
  written i hi := by
    obtain rfl : i = 0 := by omega
    exact load32_store32_self _ _ _
  rest x hlo _ := store32_apply_of_notMem _ _ (Or.inr hlo)

theorem typeGetContents_iff_returnInt :
    DeliversContents 0 returnInt roomForTwo nullTypes (fun _ => 0x4c000405#32) 1 ↔
      ∀ i, 1 ≤ i → i < roomForTwo.maxDatatypes.toNat →
        load64 nullTypes (roomForTwo.datatypes + 8 * i) =
          (load32 nullTypes (roomForTwo.datatypes + 4 * i)).signExtend 64 :=
  typeGetContents_iff returns_returnInt

/-- The second entry is overwritten by the upper half of the first. -/
theorem not_typeGetContents_returnInt :
    Returns 0 returnInt roomForTwo nullTypes (fun _ => 0x4c000405#32) 1 ∧
      ¬DeliversContents 0 returnInt roomForTwo nullTypes (fun _ => 0x4c000405#32) 1 := by
  refine ⟨returns_returnInt, fun h => ?_⟩
  have hkept := h.kept 1 le_rfl (by decide)
  rw [returns_returnInt.tail le_rfl (by decide)] at hkept
  revert hkept
  decide

end TypeContentsArgs

end UniMPI
