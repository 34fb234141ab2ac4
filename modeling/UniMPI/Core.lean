import UniMPI.Backends
import UniMPI.Loader

/-!
# The lifecycle

The process-wide state of the facade and its six entry points: `init`,
`initThread`, `initWith` and `finalize` of the MPI interface, `mpitInitThread`
and `mpitFinalize` of the tools interface. `exec` is one call. A call through a
dispatch table that reaches a null member or a closed library is a `Fault`, and
ends the run.

`loadBackend` is the sequence that `unimpi_ensure_loaded` and `unimpi_init_with`
both contain: load, fill, and undo on failure. `loadOutcome` says from the inputs
alone how far it gets, and `loadBackend_eq` gives the state it leaves for each
outcome, so that no later argument opens the loader or the fills again.
-/

namespace UniMPI

/-- `unimpi_state_t`. -/
inductive LifecycleState
  | never
  | initializing
  | active
  | initFailed
  | finalizing
  | finalized
  | finalizeFailed
  deriving DecidableEq

/-- `unimpi_backend_identity_t`. -/
structure BackendIdentity where
  backendType : BackendType
  backendName : Option CString
  libraryPath : Option CString

/-- The static variables of the facade, its tables, and the dynamic linker's account. The reference
count is an `int` in the source, and a run has fewer than `2 ^ 31` unmatched initialisations. -/
structure State where
  gState : LifecycleState
  gBackendIdentity : BackendIdentity
  gHandle : Option Library
  gRefcount : Int
  gMpitInited : Bool
  gBackendLoaded : Bool
  gThreadLevel : Int
  gBackendType : BackendType
  tables : Tables
  linker : Linker

/-- What `clear_backend_identity` leaves. -/
def BackendIdentity.cleared : BackendIdentity :=
  ⟨.unknown, none, none⟩

/-- A fresh process. -/
def State.initial : State where
  gState := .never
  gBackendIdentity := .cleared
  gHandle := none
  gRefcount := 0
  gMpitInited := false
  gBackendLoaded := false
  gThreadLevel := 0
  gBackendType := .unknown
  tables := .initial
  linker := ⟨[], []⟩

/-! ## Calls through the tables -/

/-- A call through a member that is null or bound to a closed library. -/
inductive Fault
  | null (s : Slot)
  | closed (s : Slot)
  | mtNull (s : MtSlot)
  | mtClosed (s : MtSlot)
  deriving DecidableEq

/-- How a call faults, if it does. -/
def faultOf {α : Type*} : Except Fault α → Option Fault
  | .error f => some f
  | .ok _ => none

@[simp] theorem faultOf_ok {α : Type*} (a : α) : faultOf (.ok a) = none :=
  rfl

theorem exists_ok_of_faultOf {α : Type*} {r : Except Fault α} (h : faultOf r = none) :
    ∃ a, r = .ok a := by
  cases r with
  | error f => cases h
  | ok a => exact ⟨a, rfl⟩

/-- What a member ends up calling: an adapter forwards to the function its backend recorded. -/
def Tables.target (t : Tables) (s : Slot) : Entry :=
  match t.unimpi s with
  | .wrapper b => t.natives b s
  | e => e

theorem Tables.target_of_wrapper {t : Tables} {s : Slot} {b : BackendType}
    (h : t.unimpi s = .wrapper b) : t.target s = t.natives b s := by
  rw [Tables.target, h]

theorem Tables.target_of_bind {t : Tables} {s : Slot} {L : Library}
    (h : t.unimpi s = L.bind s.symbol) : t.target s = L.bind s.symbol := by
  rw [Tables.target, h]
  unfold Library.bind
  split_ifs <;> rfl

/-- Call through a member of `unimpi`. -/
def callSlot (st : State) (s : Slot) : Except Fault Unit :=
  match st.tables.target s with
  | .null => .error (.null s)
  | .native lib _ => if st.linker.IsOpen lib then .ok () else .error (.closed s)
  | _ => .ok ()

/-- Call through a member of `unimpi_mt`. -/
def callMtSlot (st : State) (s : MtSlot) : Except Fault Unit :=
  match st.tables.unimpiMt s with
  | .null => .error (.mtNull s)
  | .native lib _ => if st.linker.IsOpen lib then .ok () else .error (.mtClosed s)
  | _ => .ok ()

/-! ## Loading and filling -/

/-- `unimpi_loader_load`, but for the handle it stores. -/
def loaderLoad (env : Env) (path : CString) : Except ReturnCode Library :=
  if pathNamesStandardAbi path then .error .errAbiMismatch
  else match openPath env path with
    | none => .error .errBackendLoad
    | some L => .ok L

/-- `unimpi_vtable_init` before it looks at the library: `UNIMPI_STATUS_IGNORE` and the MPI-T table
are neutral. -/
def vtableInitStart (t : Tables) : Tables :=
  { t with
    unimpiMt := fun _ => .null
    globals := assign (fun | .statusIgnore => some 0 | _ => none) t.globals }

/-- The fill that `unimpi_vtable_init` selects; `none` when it fails. -/
def fill (b : BackendType) (L : Library) (t : Tables) : Option Tables :=
  match b with
  | .openmpi => vtableInitOpenmpi L t
  | .intelmpi => some (vtableInitIntelmpi L t)
  | .msmpi => some (vtableInitMsmpi L t)
  | .mpich | .unknown => some (vtableInitMpich L t)

/-- The tables of an Open MPI fill. -/
theorem fill_openmpi_eq_some_iff {L : Library} {t t' : Tables} :
    fill .openmpi L t = some t' ↔ openmpiHasComms L = true ∧ t' = {
      unimpi := openmpiEntry L
      unimpiMt := fun s => L.bind s.symbol
      globals := assign (openmpiValue L) t.globals
      natives := t.natives } := by
  simp only [fill, vtableInitOpenmpi]
  split_ifs with hcomms
  · simp only [hcomms, true_and, Option.some.injEq]
    exact eq_comm
  · simp [hcomms]

/-- `unimpi_vtable_init`. -/
def vtableInit (p : Platform) (L : Library) (st : State) : ReturnCode × State :=
  let st := { st with tables := vtableInitStart st.tables }
  if !validateCore L then (.errSymbolNotFound, st)
  else
    let st := { st with gBackendType := identifyBackend p L }
    let ret := checkPlatformSupport p st.gBackendType st.gBackendIdentity.backendName
    if ret ≠ .ok then (ret, st)
    else match fill st.gBackendType L st.tables with
      | some t => (.ok, { st with tables := t })
      | none => (.errBackendInitFailed, { st with tables := openmpiFillStart L st.tables })

/-- Close the library behind `g_handle` and set it to `NULL`. -/
def unloadHandle (st : State) : State :=
  { st with
    gHandle := none
    linker := st.gHandle.elim st.linker fun L => st.linker.closeLib L.handle }

/-- `save_backend_identity`, for the backend type of the last fill. The source frees the saved
strings before it copies `path`; whether `path` is one of them is recorded beside a run, in
`Publication.record`. -/
def saveBackendIdentity (path : CString) (st : State) : State :=
  { st with gBackendIdentity := ⟨st.gBackendType, backendName st.gBackendType, some path⟩ }

/-- Load the library at `path`, fill the tables, and undo the loading on failure. -/
def loadBackend (p : Platform) (env : Env) (path : CString) (st : State) : ReturnCode × State :=
  match loaderLoad env path with
  | .error ret => (ret, { st with gHandle := none })
  | .ok L =>
    let st := { st with gHandle := some L, linker := st.linker.openLib L.handle }
    let (ret, st) := vtableInit p L st
    if ret ≠ .ok then (ret, unloadHandle st)
    else (.ok, saveBackendIdentity path st)

/-- `unimpi_ensure_loaded`. -/
def ensureLoaded (p : Platform) (env : Env) (st : State) : ReturnCode × State :=
  if st.gBackendLoaded then (.ok, st)
  else
    let (ret, st) := loadBackend p env (detectBackend p env) st
    if ret ≠ .ok then (ret, st)
    else (.ok, { st with gBackendLoaded := true })

/-! ## The MPI interface -/

/-- `unimpi_vtable_cleanup`. -/
def cleanup (st : State) : State :=
  { st with tables := vtableCleanup st.tables, gBackendType := .unknown }

/-- Give up one reference; the last one closes the library. -/
def releaseRef (st : State) : State :=
  let st := { st with gRefcount := st.gRefcount - 1 }
  if st.gRefcount ≤ 0 ∧ st.gHandle.isSome then
    { unloadHandle st with gBackendLoaded := false }
  else st

def clearBackendIdentity (st : State) : State :=
  { st with gBackendIdentity := .cleared }

/-- `check_can_initialize`. -/
def checkCanInitialize (st : State) : ReturnCode :=
  match st.gState with
  | .never | .initFailed => .ok
  | .initializing | .active => .errAlreadyInitialized
  | .finalized => .errFinalized
  | .finalizing | .finalizeFailed => .errInvalidState

/-- `initialize_backend` after the backend's `MPI_Init` or `MPI_Init_thread` has returned. -/
def finishInit (env : Env) (threadLevel : Option Int) (st : State) : ReturnCode × State :=
  if env.mpiInit ≠ 0 then
    (.errBackendLoad,
      { clearBackendIdentity (releaseRef (cleanup st)) with gState := .initFailed })
  else
    (.ok, { st with gState := .active, gThreadLevel := threadLevel.getD st.gThreadLevel })

/-- The member through which `initialize_backend` calls the backend. -/
def initSlot (threadMode : Bool) (st : State) : Slot :=
  if threadMode && st.tables.unimpi .initThread ≠ .null then .initThread else .init

/-- The thread level `initialize_backend` records. -/
def initLevel (env : Env) (threadMode : Bool) (st : State) : Option Int :=
  if threadMode then some (if st.tables.unimpi .initThread ≠ .null then env.provided else 0)
  else none

/-- `initialize_backend`. -/
def initializeBackend (p : Platform) (env : Env) (threadMode : Bool) (st : State) :
    Except Fault (ReturnCode × State) :=
  let (ret, st) := ensureLoaded p env st
  if ret ≠ .ok then .ok (ret, { st with gState := .initFailed })
  else
    let st := { st with gRefcount := st.gRefcount + 1 }
    match callSlot st (initSlot threadMode st) with
    | .error f => .error f
    | .ok () => .ok (finishInit env (initLevel env threadMode st) st)

/-- `unimpi_init`. -/
def init (p : Platform) (env : Env) (st : State) : Except Fault (ReturnCode × State) :=
  let ret := checkCanInitialize st
  if ret ≠ .ok then .ok (ret, st)
  else initializeBackend p env false { st with gState := .initializing }

/-- `unimpi_init_thread`; `provided` tells whether the caller passed a pointer for the level. -/
def initThread (p : Platform) (env : Env) (required : Int) (provided : Bool) (st : State) :
    Except Fault (ReturnCode × State) :=
  if required ≠ 0 ∧ required ≠ 1 ∧ required ≠ 2 ∧ required ≠ 3 then .ok (.errInvalidArgument, st)
  else if !provided then .ok (.errInvalidArgument, st)
  else
    let ret := checkCanInitialize st
    if ret ≠ .ok then .ok (ret, st)
    else initializeBackend p env true { st with gState := .initializing }

/-- `unimpi_init_with`. -/
def initWith (p : Platform) (env : Env) (name : Option CString) (st : State) :
    Except Fault (ReturnCode × State) :=
  match name with
  | none => .ok (.errNoBackend, st)
  | some name =>
    let ret := checkCanInitialize st
    if ret ≠ .ok then .ok (ret, st)
    else
      let st := { st with gState := .initializing }
      let (ret, st) := loadBackend p env (libraryFor name) st
      if ret ≠ .ok then .ok (ret, { st with gState := .initFailed })
      else match callSlot st .init with
        | .error f => .error f
        | .ok () =>
          if env.mpiInit ≠ 0 then
            .ok (.errBackendLoad,
              { clearBackendIdentity (unloadHandle (cleanup st)) with gState := .initFailed })
          else
            .ok (.ok, { st with
              gRefcount := st.gRefcount + 1, gBackendLoaded := true, gState := .active })

/-- A return code of the backend. -/
def ofBackend (code : Int) : ReturnCode :=
  if code = 0 then .ok else .backend code

/-- `unimpi_finalize`. -/
def finalize (env : Env) (st : State) : Except Fault (ReturnCode × State) :=
  match st.gState with
  | .never | .initFailed => .ok (.errNotInitialized, st)
  | .finalized => .ok (.errFinalized, st)
  | .initializing | .finalizing | .finalizeFailed => .ok (.errInvalidState, st)
  | .active =>
    let st := { st with gState := .finalizing }
    match callSlot st .finalize with
    | .error f => .error f
    | .ok () =>
      let st := clearBackendIdentity (releaseRef (cleanup st))
      .ok (ofBackend env.mpiFinalize, { st with
        gThreadLevel := 0
        gState := if env.mpiFinalize = 0 then .finalized else .finalizeFailed })

/-! ## The tools interface -/

/-- `unimpi_mpit_init_thread`. -/
def mpitInitThread (p : Platform) (env : Env) (st : State) : Except Fault (ReturnCode × State) :=
  let (ret, st) := ensureLoaded p env st
  if ret ≠ .ok then .ok (ret, st)
  else
    let st := { st with gRefcount := st.gRefcount + 1, gMpitInited := true }
    match callMtSlot st .tInitThread with
    | .error f => .error f
    | .ok () => .ok (ofBackend env.mpitInit, st)

/-- `unimpi_mpit_finalize`. -/
def mpitFinalize (env : Env) (st : State) : Except Fault (ReturnCode × State) :=
  match callMtSlot st .tFinalize with
  | .error f => .error f
  | .ok () => .ok (ofBackend env.mpitFinalize, releaseRef { st with gMpitInited := false })

/-- A call of the facade. -/
inductive Op
  | init
  | initThread (required : Int) (provided : Bool)
  | initWith (name : Option CString)
  | finalize
  | mpitInitThread
  | mpitFinalize
  deriving DecidableEq

/-- One call. -/
def exec (p : Platform) (op : Op) (env : Env) (st : State) : Except Fault (ReturnCode × State) :=
  match op with
  | .init => init p env st
  | .initThread required provided => initThread p env required provided st
  | .initWith name => initWith p env name st
  | .finalize => finalize env st
  | .mpitInitThread => mpitInitThread p env st
  | .mpitFinalize => mpitFinalize env st

/-- The return code of a call that does not fault. -/
def codeOf : Except Fault (ReturnCode × State) → Option ReturnCode
  | .error _ => none
  | .ok (ret, _) => some ret

theorem exists_ok_of_codeOf {r : Except Fault (ReturnCode × State)} {ret : ReturnCode}
    (h : codeOf r = some ret) : ∃ st, r = .ok (ret, st) := by
  cases r with
  | error f => cases h
  | ok a =>
    cases h
    exact ⟨a.2, rfl⟩

/-! ## How far loading gets -/

/-- How `loadBackend` ends. -/
inductive LoadOutcome
  /-- The path is refused or no library is found. -/
  | notLoaded (ret : ReturnCode)
  /-- A core symbol is missing. -/
  | missingCore (L : Library)
  /-- The backend is not supported. -/
  | refused (L : Library) (ret : ReturnCode)
  /-- The fill fails. -/
  | unfilled (L : Library)
  | filled (L : Library) (t : Tables)

/-- The outcome, from the inputs and the tables to fill. -/
def loadOutcome (p : Platform) (env : Env) (path : CString) (st : State) : LoadOutcome :=
  match loaderLoad env path with
  | .error ret => .notLoaded ret
  | .ok L =>
    if !validateCore L then .missingCore L
    else
      let ret := checkPlatformSupport p (identifyBackend p L) st.gBackendIdentity.backendName
      if ret ≠ .ok then .refused L ret
      else match fill (identifyBackend p L) L (vtableInitStart st.tables) with
        | some t => .filled L t
        | none => .unfilled L

/-- The return code of an outcome. -/
def LoadOutcome.code : LoadOutcome → ReturnCode
  | notLoaded ret => ret
  | missingCore _ => .errSymbolNotFound
  | refused _ ret => ret
  | unfilled _ => .errBackendInitFailed
  | filled _ _ => .ok

/-- The state an outcome leaves. -/
def LoadOutcome.apply (p : Platform) (path : CString) (st : State) : LoadOutcome → State
  | notLoaded _ => { st with gHandle := none }
  | missingCore L =>
    { st with
      gHandle := none
      linker := (st.linker.openLib L.handle).closeLib L.handle
      tables := vtableInitStart st.tables }
  | refused L _ =>
    { st with
      gHandle := none
      linker := (st.linker.openLib L.handle).closeLib L.handle
      tables := vtableInitStart st.tables
      gBackendType := identifyBackend p L }
  | unfilled L =>
    { st with
      gHandle := none
      linker := (st.linker.openLib L.handle).closeLib L.handle
      tables := openmpiFillStart L (vtableInitStart st.tables)
      gBackendType := identifyBackend p L }
  | filled L t =>
    { st with
      gHandle := some L
      linker := st.linker.openLib L.handle
      tables := t
      gBackendType := identifyBackend p L
      gBackendIdentity := ⟨identifyBackend p L, backendName (identifyBackend p L), some path⟩ }

theorem loaderLoad_error {env : Env} {path : CString} {ret : ReturnCode}
    (h : loaderLoad env path = .error ret) : ret ≠ .ok := by
  unfold loaderLoad at h
  split at h
  · cases h
    decide
  · split at h
    · cases h
      decide
    · cases h

/-- Loading does what its outcome says. -/
theorem loadBackend_eq (p : Platform) (env : Env) (path : CString) (st : State) :
    loadBackend p env path st =
      ((loadOutcome p env path st).code, (loadOutcome p env path st).apply p path st) := by
  unfold loadBackend loadOutcome
  cases hload : loaderLoad env path with
  | error ret => rfl
  | ok L =>
    cases hcore : validateCore L with
    | false => simp [vtableInit, hcore, unloadHandle, LoadOutcome.code, LoadOutcome.apply]
    | true =>
      by_cases hret : checkPlatformSupport p (identifyBackend p L)
          st.gBackendIdentity.backendName = .ok
      · cases hfill : fill (identifyBackend p L) L (vtableInitStart st.tables) with
        | none =>
          simp [vtableInit, hcore, hret, hfill, unloadHandle, LoadOutcome.code, LoadOutcome.apply]
        | some t =>
          simp [vtableInit, hcore, hret, hfill, saveBackendIdentity, LoadOutcome.code,
            LoadOutcome.apply]
      · simp [vtableInit, hcore, hret, unloadHandle, LoadOutcome.code, LoadOutcome.apply]

/-- How the outcome comes about. -/
inductive Loads (p : Platform) (env : Env) (path : CString) (st : State) : LoadOutcome → Prop
  | notLoaded {ret : ReturnCode} (hload : loaderLoad env path = .error ret) :
    Loads p env path st (.notLoaded ret)
  | missingCore {L : Library} (hload : loaderLoad env path = .ok L)
    (hcore : validateCore L = false) : Loads p env path st (.missingCore L)
  | refused {L : Library} {ret : ReturnCode} (hload : loaderLoad env path = .ok L)
    (hcore : validateCore L = true)
    (hcheck : checkPlatformSupport p (identifyBackend p L) st.gBackendIdentity.backendName = ret)
    (hret : ret ≠ .ok) : Loads p env path st (.refused L ret)
  | unfilled {L : Library} (hload : loaderLoad env path = .ok L) (hcore : validateCore L = true)
    (hfill : fill (identifyBackend p L) L (vtableInitStart st.tables) = none) :
    Loads p env path st (.unfilled L)
  | filled {L : Library} {t : Tables} (hload : loaderLoad env path = .ok L)
    (hcore : validateCore L = true)
    (hcheck : checkPlatformSupport p (identifyBackend p L) st.gBackendIdentity.backendName = .ok)
    (hfill : fill (identifyBackend p L) L (vtableInitStart st.tables) = some t) :
    Loads p env path st (.filled L t)

theorem loads (p : Platform) (env : Env) (path : CString) (st : State) :
    Loads p env path st (loadOutcome p env path st) := by
  unfold loadOutcome
  cases hload : loaderLoad env path with
  | error ret => exact .notLoaded hload
  | ok L =>
    dsimp only
    split_ifs with hcore hret
    · exact .missingCore hload (by simpa using hcore)
    · exact .refused hload (by simpa using hcore) rfl hret
    · cases hfill : fill (identifyBackend p L) L (vtableInitStart st.tables) with
      | some t => exact .filled hload (by simpa using hcore) (not_not.1 hret) hfill
      | none => exact .unfilled hload (by simpa using hcore) hfill

theorem loads_of_eq {p : Platform} {env : Env} {path : CString} {st : State} {o : LoadOutcome}
    (h : loadOutcome p env path st = o) : Loads p env path st o :=
  h ▸ loads p env path st

/-- Loading succeeds exactly when the tables are filled. -/
theorem loadOutcome_code_eq_ok_iff (p : Platform) (env : Env) (path : CString) (st : State) :
    (loadOutcome p env path st).code = .ok ↔ ∃ L t, loadOutcome p env path st = .filled L t := by
  constructor
  · intro h
    have hloads := loads p env path st
    generalize loadOutcome p env path st = o at h hloads ⊢
    cases hloads with
    | notLoaded hload => exact absurd h (loaderLoad_error hload)
    | refused hload hcore hcheck hret => exact absurd h hret
    | missingCore | unfilled => cases h
    | filled => exact ⟨_, _, rfl⟩
  · rintro ⟨L, t, h⟩
    rw [h]
    rfl

theorem loaderLoad_of_filled {p : Platform} {env : Env} {path : CString} {st : State} {L : Library}
    {t : Tables} (h : loadOutcome p env path st = .filled L t) :
    loaderLoad env path = .ok L ∧ validateCore L = true ∧
      checkPlatformSupport p (identifyBackend p L) st.gBackendIdentity.backendName = .ok ∧
      fill (identifyBackend p L) L (vtableInitStart st.tables) = some t := by
  cases loads_of_eq h with
  | filled hload hcore hcheck hfill => exact ⟨hload, hcore, hcheck, hfill⟩

theorem loaderLoad_of_unfilled {p : Platform} {env : Env} {path : CString} {st : State}
    {L : Library} (h : loadOutcome p env path st = .unfilled L) : loaderLoad env path = .ok L := by
  cases loads_of_eq h with
  | unfilled hload hcore hfill => exact hload

theorem fill_of_unfilled {p : Platform} {env : Env} {path : CString} {st : State} {L : Library}
    (h : loadOutcome p env path st = .unfilled L) :
    validateCore L = true ∧
      fill (identifyBackend p L) L (vtableInitStart st.tables) = none := by
  cases loads_of_eq h with
  | unfilled hload hcore hfill => exact ⟨hcore, hfill⟩

/-! ## The lifecycle members after a fill -/

theorem exports_of_validateCore {L : Library} (h : validateCore L = true) :
    L.exports "MPI_Init" = true ∧ L.exports "MPI_Finalize" = true := by
  simp only [validateCore, Bool.and_eq_true] at h
  exact ⟨h.1.1.1, h.1.1.2⟩

/-- A fill binds the members of kind `native` to their symbols. -/
theorem fill_native {b : BackendType} {L : Library} {t t' : Tables} {s : Slot}
    (h : fill b L t = some t') (hs : s.kind = .native) : t'.unimpi s = L.bind s.symbol := by
  have hlegacy : ∀ b value, (legacyFill b value L t).unimpi s = L.bind s.symbol := by
    intro b value
    simp only [legacyFill, legacyEntry, hs]
  cases b with
  | openmpi =>
    obtain ⟨-, rfl⟩ := fill_openmpi_eq_some_iff.1 h
    simp only [openmpiEntry, hs]
  | unknown | mpich | intelmpi | msmpi =>
    cases h
    exact hlegacy _ _

/-- A fill binds the whole MPI-T table. -/
theorem fill_unimpiMt {b : BackendType} {L : Library} {t t' : Tables} (h : fill b L t = some t') :
    t'.unimpiMt = fun s => L.bind s.symbol := by
  cases b with
  | openmpi =>
    obtain ⟨-, rfl⟩ := fill_openmpi_eq_some_iff.1 h
    rfl
  | unknown | mpich | intelmpi | msmpi =>
    cases h
    rfl

end UniMPI
