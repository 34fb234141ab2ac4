import UniMPI.Lifecycle

/-!
# What a failed initialisation leaves

`Neutral` is the state a failed initialisation should leave. The five stages at
which it can fail undo different parts: a failed `MPI_Init` undoes all of them, a
library that is not found, not complete or not supported leaves what earlier
calls have left, and a failed fill leaves the members it has bound.
`FailsCleanly` says, from the state before and the outcome of loading, when the
result is neutral, and `neutral_iff` that it is exact.
-/

namespace UniMPI

open Runs

/-- The state a failed initialisation should leave. -/
structure Neutral (st : State) : Prop where
  unimpi : ∀ s, st.tables.unimpi s = .null
  comms : st.tables.globals .commWorld = 0 ∧ st.tables.globals .commSelf = 0
  statusIgnore : st.tables.globals .statusIgnore = 0
  backendType : st.gBackendType = .unknown
  identity : st.gBackendIdentity.backendName = none ∧ st.gBackendIdentity.libraryPath = none
  closed : st.gHandle = none ∧ st.linker.NoneOpen
  refcount : st.gRefcount = 0
  retry : checkCanInitialize st = .ok

/-- The parts that only a failed `MPI_Init` makes neutral. -/
structure Untouched (st : State) : Prop where
  unimpi : ∀ s, st.tables.unimpi s = .null
  comms : st.tables.globals .commWorld = 0 ∧ st.tables.globals .commSelf = 0
  identity : st.gBackendIdentity.backendName = none ∧ st.gBackendIdentity.libraryPath = none

/-- When loading, and starting the backend if it is loaded, fails neutrally. -/
def LeavesNeutral (p : Platform) (env : Env) (path : CString) (st : State) : Prop :=
  match loadOutcome p env path st with
  | .notLoaded _ =>
    Untouched st ∧ st.gBackendType = .unknown ∧ st.tables.globals .statusIgnore = 0
  | .missingCore _ => Untouched st ∧ st.gBackendType = .unknown
  | .refused L _ => Untouched st ∧ identifyBackend p L = .unknown
  | .unfilled _ => False
  | .filled _ _ => True

/-- No library is open before, and the call reuses a loaded one or fails neutrally. -/
def FailsCleanly (p : Platform) (env : Env) (path : CString) (op : Op) (st : State) : Prop :=
  st.linker.NoneOpen ∧
    (op.reuses = true ∧ st.gBackendLoaded = true ∨ LeavesNeutral p env path st)

/-! ## The stages -/

theorem noneOpen_openLib_closeLib (l : Linker) (k : ℕ) :
    ((l.openLib k).closeLib k).NoneOpen ↔ l.NoneOpen :=
  forall_congr' fun h => not_congr (l.isOpen_openLib_closeLib h k)

section Stages

variable {p : Platform} {env : Env} {path : CString} {st : State} {L : Library} {t : Tables}

/-- A cleared state is neutral exactly if no library is open. -/
theorem neutral_retained_iff (hL : st.gHandle = none) (hzero : st.gRefcount = 0) :
    Neutral (retainedState st) ↔ st.linker.NoneOpen := by
  refine ⟨fun h => h.closed.2, fun hnone => ?_⟩
  exact ⟨fun _ => rfl, ⟨rfl, rfl⟩, rfl, rfl, ⟨rfl, rfl⟩, ⟨hL, hnone⟩, hzero, rfl⟩

theorem neutral_abandoned_iff (hzero : st.gRefcount = 0) :
    Neutral (abandonedState p path st L t) ↔ st.linker.NoneOpen := by
  refine ⟨fun h => (noneOpen_openLib_closeLib _ _).1 h.closed.2, fun hnone => ?_⟩
  exact ⟨fun _ => rfl, ⟨rfl, rfl⟩, rfl, rfl, ⟨rfl, rfl⟩,
    ⟨rfl, (noneOpen_openLib_closeLib _ _).2 hnone⟩, hzero, rfl⟩

/-- A library opened and closed again, its slots unassigned, leaves what was neutral before. -/
theorem neutral_reopened_iff (b : BackendType) (hzero : st.gRefcount = 0) :
    Neutral { st with
      gHandle := none
      linker := (st.linker.openLib L.handle).closeLib L.handle
      tables := vtableInitStart st.tables
      gBackendType := b
      gState := .initFailed } ↔ st.linker.NoneOpen ∧ Untouched st ∧ b = .unknown := by
  constructor
  · intro h
    exact ⟨(noneOpen_openLib_closeLib _ _).1 h.closed.2, ⟨h.unimpi, h.comms, h.identity⟩,
      h.backendType⟩
  · rintro ⟨hnone, hu, htype⟩
    exact ⟨hu.unimpi, hu.comms, rfl, htype, hu.identity,
      ⟨rfl, (noneOpen_openLib_closeLib _ _).2 hnone⟩, hzero, rfl⟩

/-- A failed Open MPI fill is never neutral: `init` stays bound. -/
theorem not_neutral_unfilled (ho : loadOutcome p env path st = .unfilled L) (g : LifecycleState) :
    ¬Neutral { (LoadOutcome.unfilled L).apply p path st with gState := g } := by
  intro h
  have hbind : L.bind "MPI_Init" = .null := h.unimpi .init
  have hinit := (exports_of_validateCore (fill_of_unfilled ho).1).1
  rw [L.bind_of_exports hinit] at hbind
  cases hbind

theorem neutral_failed_iff (ho : (loadOutcome p env path st).code ≠ .ok)
    (hzero : st.gRefcount = 0) :
    Neutral { (loadOutcome p env path st).apply p path st with gState := .initFailed } ↔
      st.linker.NoneOpen ∧ LeavesNeutral p env path st := by
  unfold LeavesNeutral
  cases hout : loadOutcome p env path st with
  | notLoaded ret =>
    constructor
    · intro h
      exact ⟨h.closed.2, ⟨h.unimpi, h.comms, h.identity⟩, h.backendType, h.statusIgnore⟩
    · rintro ⟨hnone, hu, htype, hignore⟩
      exact ⟨hu.unimpi, hu.comms, hignore, htype, hu.identity, ⟨rfl, hnone⟩, hzero, rfl⟩
  | missingCore L => exact neutral_reopened_iff st.gBackendType hzero
  | refused L ret => exact neutral_reopened_iff (identifyBackend p L) hzero
  | unfilled L => exact iff_of_false (not_neutral_unfilled hout _) fun h => h.2
  | filled L t =>
    rw [hout] at ho
    exact absurd rfl ho

end Stages

/-! ## Results -/

/-- From every reachable state without references, an initialisation that passes its checks and
fails leaves a neutral state exactly if it fails cleanly. -/
theorem neutral_iff {p : Platform} {s : Sys} {op : Op} {env : Env} {path : CString}
    {ret : ReturnCode} {st' : State} (h : Reaches (Step p) (fun _ _ => True) Sys.initial s)
    (hzero : s.core.gRefcount = 0) (hcheck : checkCanInitialize s.core = .ok)
    (hpath : op.path p env = some path) (hexec : exec p op env s.core = .ok (ret, st'))
    (hret : ret ≠ .ok) : Neutral st' ↔ FailsCleanly p env path op s.core := by
  have hinv := Inv.of_reaches h
  unfold FailsCleanly
  cases exec_effect hexec with
  | refused hret' hwhy => exact absurd hwhy (not_refused hcheck hpath)
  | loadFailed hcheck' hpath' hl ho =>
    cases hpath.symm.trans hpath'
    have hreuse : ¬(op.reuses = true ∧ s.core.gBackendLoaded = true) := fun hr =>
      absurd hr.2 (ne_true_of_eq_false (hl hr.1))
    rw [or_iff_right hreuse]
    exact neutral_failed_iff ho hzero
  | initFailed hcheck' hpath' hready hret' =>
    cases hpath.symm.trans hpath'
    rcases initFailedState_cases hinv hready with ⟨hr, hl, heq⟩ | ⟨L, t, ho, hl, heq⟩
    · rw [heq, neutral_retained_iff (hinv.unheld hzero) hzero]
      exact (and_iff_left (Or.inl ⟨hr, hl⟩)).symm
    · rw [heq, neutral_abandoned_iff hzero, LeavesNeutral, ho]
      exact (and_iff_left (Or.inr trivial)).symm
  | started level hcheck' hpath' hready hret' hlevel => exact absurd rfl hret
  | finalized | mpitLoadFailed | mpitStarted | mpitFinalized => cases hpath

/-- A library of the Open MPI family without `ompi_mpi_comm_self`. -/
def openmpiLibrary : Library :=
  .ofSymbols 3 ["MPI_Init", "MPI_Finalize", "MPI_Comm_size", "MPI_Comm_rank",
    "ompi_mpi_comm_world"]

/-- From a fresh process, a failing `MPI_Init` leaves a neutral state. -/
theorem neutral_iff_fresh : ∃ st',
    exec .linux .init (.offering (some mpichLibrary) 1) State.initial =
      .ok (.errBackendLoad, st') ∧ Neutral st' := by
  obtain ⟨st', hexec⟩ := @exists_ok_of_codeOf
    (exec .linux .init (.offering (some mpichLibrary) 1) State.initial) .errBackendLoad
    (by decide +kernel)
  have hcode : (loadOutcome .linux (.offering (some mpichLibrary) 1)
      (detectBackend .linux (.offering (some mpichLibrary) 1)) State.initial).code = .ok := by
    decide +kernel
  obtain ⟨t, ho⟩ := exists_filled_offering hcode
  have hstart : Sys.initial.core = State.initial := rfl
  refine ⟨st', hexec, (neutral_iff .refl rfl rfl rfl hexec nofun).2 ⟨fun k => ?_, Or.inr ?_⟩⟩
  · exact Nat.lt_irrefl 0
  · rw [LeavesNeutral, hstart, ho]
    trivial

/-- A fresh process that finds an Open MPI library without its communicators keeps the members
bound to it. -/
theorem not_neutral_openmpi : ¬∀ s op env path ret st',
    Reaches (Step .linux) (fun _ _ => True) Sys.initial s → s.core.gRefcount = 0 →
    checkCanInitialize s.core = .ok → op.path .linux env = some path →
    exec .linux op env s.core = .ok (ret, st') → ret ≠ .ok → Neutral st' := by
  obtain ⟨st', hexec⟩ := @exists_ok_of_codeOf
    (exec .linux .init (.offering (some openmpiLibrary) 0) State.initial) .errBackendInitFailed
    (by decide +kernel)
  have hinit : ((exec .linux .init (.offering (some openmpiLibrary) 0) State.initial).toOption.map
      fun r => r.2.tables.unimpi .init) = some (.native 3 1) := by decide +kernel
  rw [hexec] at hinit
  intro h
  have hneutral := h Sys.initial .init _ _ _ st' .refl rfl rfl rfl hexec nofun
  rw [Except.toOption, Option.map_some, hneutral.unimpi] at hinit
  cases hinit

end UniMPI
