import UniMPI.Vtable

/-!
# Backend libraries and the dynamic linker

A `Library` is what `dlopen` returns: a handle, the addresses of its symbols and
the values that its variables hold. `Linker` counts the openings and closings of
each handle, so a library is open while it has been opened more often than
closed. `openLib` and `closeLib` are the only two ways a linker changes.
-/

namespace UniMPI

/-- The backends of the facade, `UNIMPI_BACKEND_UNKNOWN` first. -/
inductive BackendType
  | unknown
  | openmpi
  | mpich
  | intelmpi
  | msmpi
  deriving DecidableEq

/-- A backend library in memory. -/
structure Library where
  handle : ℕ
  /-- The address of a symbol, `0` if it is not exported. -/
  dlsym : String → ℕ
  /-- The variable at an address. -/
  peek : ℕ → Int

def Library.exports (L : Library) (symbol : String) : Bool :=
  L.dlsym symbol != 0

/-- What a member of a dispatch table holds. -/
inductive Entry
  | null
  /-- A function of a library. -/
  | native (lib addr : ℕ)
  /-- An adapter of a backend, which calls the native function that backend's fill recorded. -/
  | wrapper (b : BackendType)
  /-- A backend's reader of its status layout. -/
  | statusReader (b : BackendType)
  /-- `unimpi_aint_add` or `unimpi_aint_diff`. -/
  | localAint
  deriving DecidableEq

/-- What `dlsym` gives a member. -/
def Library.bind (L : Library) (symbol : String) : Entry :=
  if L.exports symbol then .native L.handle (L.dlsym symbol) else .null

theorem Library.bind_eq_null_iff (L : Library) (symbol : String) :
    L.bind symbol = .null ↔ L.exports symbol = false := by
  unfold Library.bind
  cases L.exports symbol <;> simp

theorem Library.bind_of_exports {L : Library} {symbol : String} (h : L.exports symbol) :
    L.bind symbol = .native L.handle (L.dlsym symbol) :=
  if_pos h

/-! ## The linker -/

/-- The handles that `dlopen` returned and those passed to `dlclose`, latest first. -/
structure Linker where
  opened : List ℕ
  closed : List ℕ

namespace Linker

def openLib (l : Linker) (handle : ℕ) : Linker :=
  { l with opened := handle :: l.opened }

def closeLib (l : Linker) (handle : ℕ) : Linker :=
  { l with closed := handle :: l.closed }

/-- Opened more often than closed. -/
def IsOpen (l : Linker) (handle : ℕ) : Prop :=
  l.closed.count handle < l.opened.count handle

instance (l : Linker) (handle : ℕ) : Decidable (l.IsOpen handle) :=
  inferInstanceAs (Decidable (_ < _))

/-- No library is open. -/
def NoneOpen (l : Linker) : Prop :=
  ∀ handle, ¬l.IsOpen handle

theorem isOpen_openLib_self {l : Linker} {h : ℕ} (hle : l.closed.count h ≤ l.opened.count h) :
    (l.openLib h).IsOpen h := by
  simp only [IsOpen, openLib, List.count_cons_self]
  omega

theorem IsOpen.openLib {l : Linker} {h : ℕ} (ho : l.IsOpen h) (h' : ℕ) :
    (l.openLib h').IsOpen h :=
  Nat.lt_of_lt_of_le ho (List.count_le_count_cons)

/-- Opening and closing a handle again changes nothing about what is open. -/
theorem isOpen_openLib_closeLib (l : Linker) (h h' : ℕ) :
    ((l.openLib h').closeLib h').IsOpen h ↔ l.IsOpen h := by
  simp only [IsOpen, openLib, closeLib, List.count_cons]
  omega

/-- No handle was closed more often than opened. -/
def Balanced (l : Linker) : Prop :=
  ∀ h, l.closed.count h ≤ l.opened.count h

theorem Balanced.openLib {l : Linker} (hb : l.Balanced) (h : ℕ) : (l.openLib h).Balanced := by
  intro h'
  have := hb h'
  simp only [Linker.openLib, List.count_cons]
  omega

theorem Balanced.closeLib {l : Linker} (hb : l.Balanced) {h : ℕ} (ho : l.IsOpen h) :
    (l.closeLib h).Balanced := by
  intro h'
  by_cases hh : h = h'
  · subst hh
    simp only [Linker.closeLib, List.count_cons_self]
    exact ho
  · simp only [Linker.closeLib, List.count_cons_of_ne hh]
    exact hb h'

theorem Balanced.openLib_closeLib {l : Linker} (hb : l.Balanced) (h : ℕ) :
    ((l.openLib h).closeLib h).Balanced :=
  (hb.openLib h).closeLib (isOpen_openLib_self (hb h))

end Linker

end UniMPI
