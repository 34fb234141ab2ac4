import UniMPI.Library
import UniMPI.RuntimeValues

/-!
# Filling the tables

`vtableInitMpich`, `vtableInitIntelmpi`, `vtableInitMsmpi` and
`vtableInitOpenmpi` bind the members of the two dispatch tables to a library and
assign the run-time values. The three integer-handle fills differ only in the
values they assign (`legacyFill`). The Open MPI fill alone can fail: it returns
between binding the first members and the rest when the library has no
predefined communicators, and leaves what it has bound in place.

What a fill leaves of the earlier contents is exactly: members of kind
`typeArray` the library does not export (`legacyFill_unimpi`), and the variables
its backend does not assign.
-/

namespace UniMPI

/-- The process-wide tables: the two vtables, the variables, and the native functions that the
adapters of each backend call. -/
structure Tables where
  unimpi : Slot → Entry
  unimpiMt : MtSlot → Entry
  globals : Global → Int
  natives : BackendType → Slot → Entry

/-- The tables of a fresh process. -/
def Tables.initial : Tables where
  unimpi _ := .null
  unimpiMt _ := .null
  globals := Global.initial
  natives _ _ := .null

/-- The address of a symbol as a value. -/
def Library.symbolValue (L : Library) (symbol : String) : Int :=
  L.dlsym symbol

/-- Assign the variables that `value` has a value for. -/
def assign (value : Global → Option Int) (old : Global → Int) : Global → Int :=
  fun g => (value g).getD (old g)

/-! ## Integer-handle backends -/

/-- The `int` at a legacy symbol, or the fixed handle. -/
def legacyComm (L : Library) (symbol : String) (handle : Int) : Int :=
  if L.exports symbol then L.peek (L.dlsym symbol) else handle

/-- The shared `MPIR_Dup_fn` behind the four duplicating callbacks. -/
def legacyCallback (L : Library) : Global → Option Int
  | .commDupFn | .typeDupFn | .winDupFn | .dupFn => some (L.symbolValue "MPIR_Dup_fn")
  | _ => none

/-- The first table that has a value. -/
def firstValue (tables : List (Global → Option Int)) (g : Global) : Option Int :=
  tables.findSome? fun table => table g

def mpichValue (L : Library) : Global → Option Int
  | .commWorld => some (legacyComm L "MPIR_Comm_world" 0x44000000)
  | .commSelf => some (legacyComm L "MPIR_Comm_self" 0x44000001)
  | g => firstValue [legacyCallback L, legacyHandle, mpichErrorCode, legacyMtConstant] g

def intelmpiValue (L : Library) : Global → Option Int
  | .commWorld => some (legacyComm L "MPIR_C_MPI_COMM_WORLD" 0x44000000)
  | .commSelf => some 0x44000001
  | g => firstValue [legacyCallback L, legacyHandle, intelmpiErrorCode, legacyMtConstant] g

def msmpiValue (L : Library) : Global → Option Int
  | .commWorld => some 0x44000000
  | .commSelf => some 0x44000001
  | g => firstValue [legacyCallback L, legacyHandle, msmpiErrorCode, legacyMtConstant] g

/-- What an integer-handle fill puts into a member. -/
def legacyEntry (b : BackendType) (L : Library) (old : Entry) (s : Slot) : Entry :=
  match s.kind with
  | .native => L.bind s.symbol
  | .requestArray => .wrapper b
  | .typeArray => if L.exports s.symbol then .wrapper b else old
  | .statusReader => .statusReader b
  | .aint => if L.exports s.symbol then L.bind s.symbol else .localAint

/-- The native function behind an adapter, recorded whether or not the member is bound. -/
def legacyNative (L : Library) (old : Entry) (s : Slot) : Entry :=
  match s.kind with
  | .requestArray | .typeArray => L.bind s.symbol
  | _ => old

/-- The fill of an integer-handle backend. -/
def legacyFill (b : BackendType) (value : Library → Global → Option Int) (L : Library)
    (t : Tables) : Tables where
  unimpi s := legacyEntry b L (t.unimpi s) s
  unimpiMt s := L.bind s.symbol
  globals := assign (value L) t.globals
  natives b' s := if b' = b then legacyNative L (t.natives b' s) s else t.natives b' s

/-- `unimpi_vtable_init_mpich`. -/
def vtableInitMpich (L : Library) (t : Tables) : Tables :=
  legacyFill .mpich mpichValue L t

/-- `unimpi_vtable_init_intelmpi`. -/
def vtableInitIntelmpi (L : Library) (t : Tables) : Tables :=
  legacyFill .intelmpi intelmpiValue L t

/-- `unimpi_vtable_init_msmpi`. -/
def vtableInitMsmpi (L : Library) (t : Tables) : Tables :=
  legacyFill .msmpi msmpiValue L t

/-! ## Open MPI -/

/-- A predefined communicator: the pointer behind the `_addr` symbol if there is one, else the
address of the direct symbol. -/
def openmpiComm (L : Library) (addrSymbol directSymbol : String) : Int :=
  let behind := if L.exports addrSymbol then L.peek (L.dlsym addrSymbol) else 0
  if behind ≠ 0 then behind else L.symbolValue directSymbol

def openmpiWorld (L : Library) : Int :=
  openmpiComm L "ompi_mpi_comm_world_addr" "ompi_mpi_comm_world"

def openmpiSelf (L : Library) : Int :=
  openmpiComm L "ompi_mpi_comm_self_addr" "ompi_mpi_comm_self"

/-- `get_openmpi_comm_values` finds both communicators. -/
def openmpiHasComms (L : Library) : Bool :=
  openmpiWorld L != 0 && openmpiSelf L != 0

/-- The attribute callbacks, assigned before the communicators are looked up. -/
def openmpiCallback (L : Library) (g : Global) : Option Int :=
  (openmpiCallbackSymbol g).map L.symbolValue

def openmpiHandle (L : Library) (g : Global) : Option Int :=
  (openmpiHandleSymbol g).map L.symbolValue

def openmpiValue (L : Library) : Global → Option Int
  | .commWorld => some (openmpiWorld L)
  | .commSelf => some (openmpiSelf L)
  | .requestNull => some (L.symbolValue "ompi_request_null")
  | .statusIgnore => some 0
  | .infoNull => some (L.symbolValue "ompi_mpi_info_null")
  | .fileNull => some (L.symbolValue "ompi_mpi_file_null")
  | .errorsAreFatal => some (L.symbolValue "ompi_mpi_errors_are_fatal")
  | .errorsReturn => some (L.symbolValue "ompi_mpi_errors_return")
  | .errorsAbort => some (L.symbolValue "ompi_mpi_errors_abort")
  | .cart => some 1
  | .graph => some 2
  | .distGraph => some 3
  | g => firstValue [openmpiCallback L, openmpiHandle L, openmpiErrorCode, openmpiMtConstant] g

/-- What the Open MPI fill puts into a member. -/
def openmpiEntry (L : Library) (s : Slot) : Entry :=
  match s.kind with
  | .statusReader => .statusReader .openmpi
  | .aint => if L.exports s.symbol then L.bind s.symbol else .localAint
  | _ => L.bind s.symbol

/-- The members bound after the communicators have been looked up. -/
def Slot.afterComms : Slot → Bool
  | .aintAdd | .aintDiff | .fileIreadAll | .fileIwriteAll | .fileIreadAtAll | .fileIwriteAtAll
  | .commIdup => true
  | _ => false

/-- What the Open MPI fill has done when it looks up the communicators. -/
def openmpiFillStart (L : Library) (t : Tables) : Tables where
  unimpi s := if s.afterComms then t.unimpi s else openmpiEntry L s
  unimpiMt := t.unimpiMt
  globals := assign (openmpiCallback L) t.globals
  natives := t.natives

/-- `unimpi_vtable_init_openmpi`; `none` in place of `UNIMPI_ERR_BACKEND_INIT_FAILED`, which comes
with the tables of `openmpiFillStart`. -/
def vtableInitOpenmpi (L : Library) (t : Tables) : Option Tables :=
  if openmpiHasComms L then
    some {
      unimpi := openmpiEntry L
      unimpiMt := fun s => L.bind s.symbol
      globals := assign (openmpiValue L) t.globals
      natives := t.natives }
  else none

/-! ## Cleaning up -/

/-- `unimpi_vtable_cleanup` on the tables. -/
def vtableCleanup (t : Tables) : Tables where
  unimpi _ := .null
  unimpiMt := t.unimpiMt
  globals := assign
    (fun | .commWorld | .commSelf | .statusIgnore => some 0
         | _ => none) t.globals
  natives := t.natives

/-! ## What a fill keeps -/

/-- An integer-handle fill keeps a member only where its kind is `typeArray` and the library does
not export the symbol. -/
theorem legacyFill_unimpi (b : BackendType) (value : Library → Global → Option Int) (L : Library)
    (t t' : Tables) (s : Slot)
    (h : s.kind = .typeArray → L.exports s.symbol = false → t.unimpi s = t'.unimpi s) :
    (legacyFill b value L t).unimpi s = (legacyFill b value L t').unimpi s := by
  simp only [legacyFill, legacyEntry]
  split
  · rfl
  · rfl
  · rename_i hk
    cases he : L.exports s.symbol with
    | true => rfl
    | false => simpa using h hk he
  · rfl
  · rfl

theorem assign_of_some {value : Global → Option Int} {old : Global → Int} {g : Global} {v : Int}
    (h : value g = some v) : assign value old g = v := by
  simp only [assign, h, Option.getD_some]

theorem assign_of_none {value : Global → Option Int} {old : Global → Int} {g : Global}
    (h : value g = none) : assign value old g = old g := by
  simp only [assign, h, Option.getD_none]

end UniMPI
