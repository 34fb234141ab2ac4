import Mathlib.Data.List.Basic
import UniMPI.Library

/-!
# Finding, loading and identifying a backend

The loader turns the environment into a library path (`detectBackend`), opens
the library at a path (`openPath`) and tells from its symbols which backend it
is (`identifyBackend`). Paths are C strings, a `Char` for a byte. What `getenv`
and `dlopen` answer is a parameter.
-/

namespace UniMPI

/-- A C string without its terminator. -/
abbrev CString := List Char

/-- The platform the facade is built for. -/
inductive Platform
  | windows
  | apple
  | linux
  | other
  deriving DecidableEq

/-- The return codes of the facade. -/
inductive ReturnCode
  | ok
  | errNoBackend
  | errBackendLoad
  | errAbiMismatch
  | errNotInitialized
  | errAlreadyInitialized
  | errSymbolNotFound
  | errInvalidArgument
  | errBackendNotSupported
  | errBackendInitFailed
  | errFinalized
  | errInvalidState
  /-- A code of the backend, passed on. -/
  | backend (code : Int)
  deriving DecidableEq

/-- An entry of `unimpi_backends`. -/
structure BackendInfo where
  type : BackendType
  name : CString
  libName : CString
  libNameAlt : Option CString

/-- `unimpi_backends`. -/
def unimpiBackends : List BackendInfo :=
  [⟨.openmpi, "openmpi".toList, "libmpi.so.40".toList, some "libmpi.so.20".toList⟩,
   ⟨.mpich, "mpich".toList, "libmpich.so".toList, none⟩,
   ⟨.intelmpi, "intelmpi".toList, "libmpi.so".toList, none⟩,
   ⟨.msmpi, "msmpi".toList, "msmpi.dll".toList, none⟩]

/-- The name of a backend type in the table. -/
def backendName (b : BackendType) : Option CString :=
  (unimpiBackends.find? fun i => i.type = b).map BackendInfo.name

/-- The library name for a backend name, which otherwise is a library path itself. -/
def libraryFor (name : CString) : CString :=
  match unimpiBackends.find? fun i => i.name = name with
  | some i => i.libName
  | none => name

/-- The second library name to try for a path. -/
def alternative (path : CString) : Option CString :=
  (unimpiBackends.find? fun i => i.libName = path).bind BackendInfo.libNameAlt

/-- `strstr`, as a test. -/
def strstr (s t : CString) : Bool :=
  s.tails.any fun tail => t.isPrefixOf tail

/-- `path_names_standard_abi`: on the first 255 bytes of the path. -/
def pathNamesStandardAbi (path : CString) : Bool :=
  let lowered := (path.take 255).map Char.toLower
  strstr lowered "mpi_abi".toList || strstr lowered "mpi-abi".toList

/-! ## The environment of a call -/

/-- What the process environment and the backend answer during one call. -/
structure Env where
  /-- `getenv("UNIMPI_BACKEND")` and `getenv("UNIMPI_LIBRARY")`. -/
  unimpiBackend : Option CString
  unimpiLibrary : Option CString
  dlopen : CString → Option Library
  /-- Return codes of `MPI_Init` or `MPI_Init_thread`, `MPI_Finalize`, `MPI_T_init_thread` and
  `MPI_T_finalize`. -/
  mpiInit : Int
  mpiFinalize : Int
  mpitInit : Int
  mpitFinalize : Int
  /-- The thread level that `MPI_Init_thread` provides. -/
  provided : Int

/-- `get_nonempty_env`. -/
def nonempty (value : Option CString) : Option CString :=
  value.filter fun v => !v.isEmpty

/-- `unimpi_loader_detect_backend`. -/
def detectBackend (p : Platform) (env : Env) : CString :=
  match nonempty env.unimpiLibrary, nonempty env.unimpiBackend with
  | some path, _ => path
  | none, some name => libraryFor name
  | none, none => if p = .windows then "msmpi.dll".toList else "libmpi.so.40".toList

/-- The library that `unimpi_loader_load` gets from `dlopen`. -/
def openPath (env : Env) (path : CString) : Option Library :=
  (env.dlopen path).or ((alternative path).bind env.dlopen)

/-! ## Identification -/

/-- `unimpi_loader_identify_backend`. -/
def identifyBackend (p : Platform) (L : Library) : BackendType :=
  if p = .windows && L.exports "MSMPI_Get_version" then .msmpi
  else if L.exports "ompi_mpi_comm_world" then .openmpi
  else if L.exports "__I_MPI___cpu_core_type" then .intelmpi
  else if L.exports "MPIR_Err_create_code" || L.exports "MPIR_Dup_fn" then .mpich
  else if L.exports "MPIR_Comm_world" then .mpich
  else .unknown

/-- `backend_supported_on_platform`. -/
def backendSupported (p : Platform) (b : BackendType) : Bool :=
  match p with
  | .windows => b = .msmpi
  | .apple => b = .openmpi || b = .mpich
  | .linux => b = .openmpi || b = .mpich || b = .intelmpi
  | .other => false

/-- `unimpi_loader_check_platform_support`. -/
def checkPlatformSupport (p : Platform) (b : BackendType) (path : Option CString) : ReturnCode :=
  if !backendSupported p b then .errBackendNotSupported
  else if (b = .mpich || b = .intelmpi) && path.any pathNamesStandardAbi then .errAbiMismatch
  else .ok

/-- `unimpi_vtable_validate_core`. -/
def validateCore (L : Library) : Bool :=
  L.exports "MPI_Init" && L.exports "MPI_Finalize" && L.exports "MPI_Comm_size" &&
    L.exports "MPI_Comm_rank"

/-! ## Results -/

/-- No backend is supported without being identified. -/
theorem backendSupported_unknown (p : Platform) : backendSupported p .unknown = false := by
  cases p <;> rfl

theorem backendSupported_of_check {p : Platform} {b : BackendType} {path : Option CString}
    (h : checkPlatformSupport p b path = .ok) : backendSupported p b = true := by
  unfold checkPlatformSupport at h
  split_ifs at h with hunsupported
  simpa using hunsupported

/-- A backend that passes the check has been identified. -/
theorem ne_unknown_of_check {p : Platform} {b : BackendType} {path : Option CString}
    (h : checkPlatformSupport p b path = .ok) : b ≠ .unknown := by
  rintro rfl
  have hsupported := backendSupported_of_check h
  rw [backendSupported_unknown] at hsupported
  cases hsupported

/-- A name in the table is no path of a standard ABI library. -/
theorem pathNamesStandardAbi_backendName (b : BackendType) :
    (backendName b).any pathNamesStandardAbi = false := by
  cases b <;> decide

end UniMPI
