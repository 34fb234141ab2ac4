import Mathlib.Data.List.Nodup
import UniMPI.ErrorClass
import UniMPI.StandardNames

/-!
# Error strings

`unimpi_mpi_error_string` compares a code with the run-time value of one error class
after another and returns the name of the first that matches. The values are those of
the backend that was filled last, with what earlier backends have left in the classes
it does not assign, and `0`, the value of `MPI_SUCCESS`, in the rest.

`errorString_iff` : after any run, the string for the value of a class is the name of
that class exactly if the class is `MPI_SUCCESS` or has a value other than `0`. What
carries it is that no backend's values clash, neither with each other nor with what
another backend may have left (`classValue_injective`).
-/

namespace UniMPI

open Runs

/-! ## The function -/

/-- The error classes in the order in which the function compares them, with their names. -/
def errorNames : List (Global × String) :=
  [(.success, "MPI_SUCCESS"), (.errBuffer, "MPI_ERR_BUFFER"), (.errCount, "MPI_ERR_COUNT"),
   (.errType, "MPI_ERR_TYPE"), (.errTag, "MPI_ERR_TAG"), (.errComm, "MPI_ERR_COMM"),
   (.errRank, "MPI_ERR_RANK"), (.errRequest, "MPI_ERR_REQUEST"), (.errRoot, "MPI_ERR_ROOT"),
   (.errGroup, "MPI_ERR_GROUP"), (.errOp, "MPI_ERR_OP"), (.errTopology, "MPI_ERR_TOPOLOGY"),
   (.errDims, "MPI_ERR_DIMS"), (.errArg, "MPI_ERR_ARG"), (.errUnknown, "MPI_ERR_UNKNOWN"),
   (.errTruncate, "MPI_ERR_TRUNCATE"), (.errOther, "MPI_ERR_OTHER"),
   (.errIntern, "MPI_ERR_INTERN"), (.errInStatus, "MPI_ERR_IN_STATUS"),
   (.errPending, "MPI_ERR_PENDING"), (.errAccess, "MPI_ERR_ACCESS"), (.errAmode, "MPI_ERR_AMODE"),
   (.errAssert, "MPI_ERR_ASSERT"), (.errBadFile, "MPI_ERR_BAD_FILE"), (.errBase, "MPI_ERR_BASE"),
   (.errConversion, "MPI_ERR_CONVERSION"), (.errDisp, "MPI_ERR_DISP"),
   (.errDupDatarep, "MPI_ERR_DUP_DATAREP"), (.errFileExists, "MPI_ERR_FILE_EXISTS"),
   (.errFileInUse, "MPI_ERR_FILE_IN_USE"), (.errFile, "MPI_ERR_FILE"),
   (.errInfoKey, "MPI_ERR_INFO_KEY"), (.errInfoNokey, "MPI_ERR_INFO_NOKEY"),
   (.errInfoValue, "MPI_ERR_INFO_VALUE"), (.errInfo, "MPI_ERR_INFO"), (.errIo, "MPI_ERR_IO"),
   (.errKeyval, "MPI_ERR_KEYVAL"), (.errLocktype, "MPI_ERR_LOCKTYPE"), (.errName, "MPI_ERR_NAME"),
   (.errNoMem, "MPI_ERR_NO_MEM"), (.errNotSame, "MPI_ERR_NOT_SAME"),
   (.errNoSpace, "MPI_ERR_NO_SPACE"), (.errNoSuchFile, "MPI_ERR_NO_SUCH_FILE"),
   (.errPort, "MPI_ERR_PORT"), (.errQuota, "MPI_ERR_QUOTA"), (.errReadOnly, "MPI_ERR_READ_ONLY"),
   (.errRmaConflict, "MPI_ERR_RMA_CONFLICT"), (.errRmaSync, "MPI_ERR_RMA_SYNC"),
   (.errService, "MPI_ERR_SERVICE"), (.errSize, "MPI_ERR_SIZE"), (.errSpawn, "MPI_ERR_SPAWN"),
   (.errUnsupportedDatarep, "MPI_ERR_UNSUPPORTED_DATAREP"),
   (.errUnsupportedOperation, "MPI_ERR_UNSUPPORTED_OPERATION"), (.errWin, "MPI_ERR_WIN"),
   (.errRmaRange, "MPI_ERR_RMA_RANGE"), (.errRmaAttach, "MPI_ERR_RMA_ATTACH"),
   (.errRmaShared, "MPI_ERR_RMA_SHARED"), (.errRmaFlavor, "MPI_ERR_RMA_FLAVOR"),
   (.errSession, "MPI_ERR_SESSION"), (.errProcAborted, "MPI_ERR_PROC_ABORTED"),
   (.errValueTooLarge, "MPI_ERR_VALUE_TOO_LARGE"), (.errErrhandler, "MPI_ERR_ERRHANDLER"),
   (.errAbi, "MPI_ERR_ABI"), (.errLastcode, "MPI_ERR_LASTCODE")]

/-- `unimpi_mpi_error_string`. -/
def unimpiMpiErrorString (globals : Global → Int) (errorCode : Int) : String :=
  match errorNames.find? fun e => globals e.1 = errorCode with
  | some e => e.2
  | none => "Unknown MPI error"

/-! ## The values of the classes -/

/-- The variables that hold an error class. -/
def Global.isError (g : Global) : Bool :=
  errorNames.any fun e => e.1 = g

/-- The error code tables of the backends. -/
def errorCode : BackendType → Global → Option Int
  | .openmpi => openmpiErrorCode
  | .intelmpi => intelmpiErrorCode
  | .msmpi => msmpiErrorCode
  | .mpich | .unknown => mpichErrorCode

/-- The values that only MPICH or only Intel MPI assigns. -/
def leftoverCode (g : Global) : Option Int :=
  (mpichErrorCode g).or (intelmpiErrorCode g)

/-- The value of a class after a fill, where it is not `0`. -/
def classValue (b : BackendType) (g : Global) : Int :=
  ((errorCode b g).or (leftoverCode g)).getD 0

theorem classValue_nodup (b : BackendType) : (errorNames.map fun e => classValue b e.1).Nodup := by
  cases b <;> decide +kernel

theorem mem_errorNames_of_isError {g : Global} (h : g.isError = true) :
    ∃ e ∈ errorNames, e.1 = g := by
  obtain ⟨e, he, heq⟩ := List.any_eq_true.1 h
  exact ⟨e, he, of_decide_eq_true heq⟩

/-- No two classes share a value. -/
theorem classValue_injective {b : BackendType} {g g' : Global} (hg : g.isError = true)
    (hg' : g'.isError = true) (h : classValue b g = classValue b g') : g = g' := by
  obtain ⟨e, he, rfl⟩ := mem_errorNames_of_isError hg
  obtain ⟨e', he', rfl⟩ := mem_errorNames_of_isError hg'
  rw [List.inj_on_of_nodup_map (classValue_nodup b) he he' h]

/-- Every error class is assigned by its table alone. -/
theorem backendValue_isError (b : BackendType) (L : Library) {g : Global} (h : g.isError = true) :
    backendValue b L g = errorCode b g := by
  revert h
  cases b <;> cases g <;> first | (intro; rfl) | (intro h; exact absurd h (by decide))

/-- A class that a backend does not assign has one value with all of them. -/
theorem classValue_of_unassigned {b : BackendType} (b' : BackendType) {g : Global}
    (hg : g.isError = true) (h : errorCode b g = none) : classValue b' g = classValue b g := by
  have hall : ∀ e ∈ errorNames, errorCode b e.1 = none →
      classValue b' e.1 = classValue b e.1 := by
    cases b <;> cases b' <;> decide +kernel
  obtain ⟨e, he, rfl⟩ := mem_errorNames_of_isError hg
  exact hall e he h

theorem classValue_of_assigned {b : BackendType} {g : Global} {v : Int}
    (h : errorCode b g = some v) : classValue b g = v := by
  rw [classValue, h]
  rfl

/-- Loading and clearing the tables touch no error class but by a fill. -/
theorem untouched_of_isError {g : Global} (h : g.isError = true) :
    g ≠ .statusIgnore ∧ openmpiCallbackSymbol g = none ∧
      ∀ t, (vtableCleanup t).globals g = t.globals g := by
  have hall : ∀ e ∈ errorNames, e.1 ≠ .statusIgnore ∧ e.1 ≠ .commWorld ∧ e.1 ≠ .commSelf ∧
      openmpiCallbackSymbol e.1 = none := by
    decide +kernel
  obtain ⟨e, he, rfl⟩ := mem_errorNames_of_isError h
  obtain ⟨hstatus, hworld, hself, hcallback⟩ := hall e he
  refine ⟨hstatus, hcallback, fun t => ?_⟩
  simp only [vtableCleanup]
  refine assign_of_none ?_
  split
  · exact absurd ‹_› hworld
  · exact absurd ‹_› hself
  · exact absurd ‹_› hstatus
  · rfl

/-! ## Every run -/

/-- The classes hold `0` or the values of one backend. -/
def ErrorValues (globals : Global → Int) : Prop :=
  globals .success = 0 ∧
    ∃ b, ∀ g : Global, g.isError = true → globals g = 0 ∨ globals g = classValue b g

theorem ErrorValues.congr {globals globals' : Global → Int} (h : ErrorValues globals)
    (heq : ∀ g : Global, g.isError = true → globals' g = globals g) : ErrorValues globals' := by
  obtain ⟨hsuccess, b, hvalues⟩ := h
  refine ⟨(heq .success (by decide)).trans hsuccess, b, fun g hg => ?_⟩
  rw [heq g hg]
  exact hvalues g hg

theorem ErrorValues.initial : ErrorValues Global.initial := by
  have hall : ∀ e ∈ errorNames, Global.initial e.1 = 0 := by decide +kernel
  refine ⟨rfl, .unknown, fun g hg => Or.inl ?_⟩
  obtain ⟨e, he, rfl⟩ := mem_errorNames_of_isError hg
  exact hall e he

/-- A fill puts its own values where it has some, and what it leaves is what any backend would have
left. -/
theorem ErrorValues.fill {b : BackendType} {L : Library} {t t' : Tables}
    (h : ErrorValues t.globals) (hfill : UniMPI.fill b L t = some t') : ErrorValues t'.globals := by
  obtain ⟨hsuccess, b₀, hvalues⟩ := h
  have hassign : ∀ g : Global, g.isError = true →
      t'.globals g = (errorCode b g).getD (t.globals g) := fun g hg => by
    rw [fill_globals hfill, assign, backendValue_isError b L hg]
  refine ⟨?_, b, fun g hg => ?_⟩
  · rw [hassign .success (by decide), hsuccess]
    cases b <;> rfl
  · rw [hassign g hg]
    cases hcode : errorCode b g with
    | some v => exact Or.inr (classValue_of_assigned hcode).symm
    | none =>
      refine (hvalues g hg).imp id fun hold => ?_
      exact hold.trans (classValue_of_unassigned b₀ hg hcode)

theorem ErrorValues.load {p : Platform} {env : Env} {path : CString} {st : State}
    (h : ErrorValues st.tables.globals) :
    ErrorValues ((loadOutcome p env path st).apply p path st).tables.globals := by
  have hstart : ErrorValues (vtableInitStart st.tables).globals :=
    h.congr fun g hg => vtableInitStart_globals (untouched_of_isError hg).1
  cases ho : loadOutcome p env path st with
  | notLoaded ret => exact h
  | missingCore L | refused L ret => exact hstart
  | unfilled L =>
    exact hstart.congr fun g hg => openmpiFillStart_other (untouched_of_isError hg).2.1
  | filled L t => exact hstart.fill (loaderLoad_of_filled ho).2.2.2

theorem ErrorValues.of_reaches {p : Platform} {C : Sys → Call → Prop} {s : Sys}
    (h : Reaches (Step p) C Sys.initial s) : ErrorValues s.core.tables.globals := by
  refine h.invariant (P := fun s => ErrorValues s.core.tables.globals) ?_ .initial
  intro s c s' _ hstep hvalues
  obtain ⟨-, ⟨ret, hexec⟩, -⟩ := hstep.cases
  have hloaded : ErrorValues (c.loaded p s.core).tables.globals := by
    unfold Call.loaded
    cases c.loads p s.core with
    | none => exact hvalues
    | some path => exact hvalues.load
  rcases (exec_effect hexec).tables with heq | heq
  · rw [heq]
    exact hloaded
  · rw [heq]
    exact hloaded.congr fun g hg => (untouched_of_isError hg).2.2 _

/-! ## Results -/

/-- The name of an error class. -/
def Global.errorName (g : Global) : String :=
  ((errorNames.find? fun e => e.1 = g).map Prod.snd).getD ""

theorem errorName_of_mem {e : Global × String} (he : e ∈ errorNames) : e.1.errorName = e.2 := by
  have hall : ∀ e ∈ errorNames, e.1.errorName = e.2 := by decide +kernel
  exact hall e he

/-- The function stops at the first class with the value, which for a value other than `0` is the
only one. -/
theorem unimpiMpiErrorString_of_ne {globals : Global → Int} (h : ErrorValues globals) {g : Global}
    (hg : g.isError = true) (hne : globals g ≠ 0) :
    unimpiMpiErrorString globals (globals g) = g.errorName := by
  obtain ⟨-, b, hvalues⟩ := h
  obtain ⟨e, he, rfl⟩ := mem_errorNames_of_isError hg
  have hsome : (errorNames.find? fun e' => globals e'.1 = globals e.1).isSome :=
    List.find?_isSome.2 ⟨e, he, decide_eq_true rfl⟩
  obtain ⟨e', he'⟩ := Option.isSome_iff_exists.1 hsome
  have hmem := List.mem_of_find?_eq_some he'
  have hsame : globals e'.1 = globals e.1 := by simpa using List.find?_some he'
  have hclass : e'.1 = e.1 := by
    have hg' : e'.1.isError = true := List.any_eq_true.2 ⟨e', hmem, decide_eq_true rfl⟩
    refine classValue_injective (b := b) hg' hg ?_
    rw [← (hvalues _ hg).resolve_left hne, ← hsame]
    exact ((hvalues _ hg').resolve_left (hsame ▸ hne)).symm
  rw [unimpiMpiErrorString, he', ← hclass, errorName_of_mem hmem]

/-- After any run, the value of an error class has the name of the class for its string exactly if
the class is `MPI_SUCCESS` or some backend has given it a value. -/
theorem errorString_iff {p : Platform} {s : Sys} {g : Global}
    (h : Reaches (Step p) (fun _ _ => True) Sys.initial s) (hg : g.isError = true) :
    unimpiMpiErrorString s.core.tables.globals (s.core.tables.globals g) = g.errorName ↔
      g = .success ∨ s.core.tables.globals g ≠ 0 := by
  have hvalues := ErrorValues.of_reaches h
  have hzero : unimpiMpiErrorString s.core.tables.globals 0 = "MPI_SUCCESS" := by
    simp [unimpiMpiErrorString, errorNames, hvalues.1]
  constructor
  · intro hname
    by_contra hnot
    obtain ⟨hne, hval⟩ := not_or.1 hnot
    rw [not_not.1 hval, hzero] at hname
    obtain ⟨e, he, rfl⟩ := mem_errorNames_of_isError hg
    have hall : ∀ e ∈ errorNames, "MPI_SUCCESS" = e.1.errorName → e.1 = .success := by
      decide +kernel
    exact hne (hall e he hname)
  · rintro (rfl | hne)
    · rw [hvalues.1, hzero]
      decide +kernel
    · exact unimpiMpiErrorString_of_ne hvalues hg hne

/-- After `MPI_Init` over an MPICH library, the value `15` is `MPI_ERR_OTHER`. -/
theorem errorString_iff_mpich : ∃ s : Sys, s.core.tables.globals .errOther = 15 ∧
    unimpiMpiErrorString s.core.tables.globals 15 = "MPI_ERR_OTHER" := by
  have hrun : ((Sys.initial.after .linux ⟨.init, .offering (some mpichLibrary) 0⟩).map fun s =>
      s.core.tables.globals .errOther) = some 15 := by decide +kernel
  obtain ⟨s, hs, hvalue⟩ := Option.map_eq_some_iff.1 hrun
  have hname := (errorString_iff (.tail .refl trivial hs) (by decide)).2
    (Or.inr (hvalue.trans_ne (by decide)))
  rw [hvalue] at hname
  exact ⟨s, hvalue, hname⟩

end UniMPI
