import UniMPI.RefCount
import UniMPI.ToolsTransparency

/-!
# The facade as a shared library

What the facade is for, without its variables. At most one library is held, by MPI
while it is active and by each initialisation of the tools interface. The first to
come loads it and the last to go closes it. `Sharing` has a value for each way that
can stand and no others, and `Sharing.respond` says what a call answers and who holds
the library then.

`facade_refines` : along every list of calls, the facade answers as the abstract one
does and stops where that one stops, and the two end in states that correspond
(`Views`). It leaves out one misuse, `unimpi_init_with` over a library of the tools
interface, which loads a second library.
-/

namespace UniMPI

open Runs

/-! ## The abstract facade -/

/-- A library in use and the path it was asked for. -/
structure Holding where
  path : CString
  library : Library

/-- MPI while it is not active. -/
inductive Rest
  | idle
  | finalized
  | finalizeFailed
  deriving DecidableEq

/-- Who holds a library. -/
inductive Sharing
  /-- Nobody. -/
  | closed (rest : Rest)
  /-- The tools interface, once and `more` times. `bound` tells whether the members of MPI are still
  those of the library. -/
  | tools (rest : Rest) (held : Holding) (bound : Bool) (more : ℕ)
  /-- MPI, and the tools interface `others` times. -/
  | active (held : Holding) (others : ℕ)

/-- What an initialisation answers that finds MPI at rest and may not go on. -/
def Rest.initCode : Rest → ReturnCode
  | idle => .ok
  | finalized => .errFinalized
  | finalizeFailed => .errInvalidState

/-- What a finalization answers that finds MPI at rest. -/
def Rest.finalizeCode : Rest → ReturnCode
  | idle => .errNotInitialized
  | finalized => .errFinalized
  | finalizeFailed => .errInvalidState

/-- The library that can be used from a path. -/
def acquire (p : Platform) (env : Env) (path : CString) : Except ReturnCode Library :=
  match loaderLoad env path with
  | .error ret => .error ret
  | .ok L =>
    if !validateCore L then .error .errSymbolNotFound
    else if !backendSupported p (identifyBackend p L) then .error .errBackendNotSupported
    else if (fill (identifyBackend p L) L .initial).isNone then .error .errBackendInitFailed
    else .ok L

namespace Sharing

/-- MPI lets go of the library. -/
def leave (rest : Rest) (held : Holding) : ℕ → Sharing
  | 0 => .closed rest
  | more + 1 => .tools rest held false more

/-- The backend is asked to start. -/
def start (env : Env) (held : Holding) (others : ℕ) : ReturnCode × Sharing :=
  if env.mpiInit = 0 then (.ok, .active held others)
  else (.errBackendLoad, leave .idle held others)

/-- An initialisation of MPI, with the library at `path` if none is held. There is no answer when
the members of MPI are lost. -/
def enter (p : Platform) (env : Env) (path : CString) (a : Sharing) :
    Option (ReturnCode × Sharing) :=
  match a with
  | .closed rest =>
    if rest = .idle then
      match acquire p env path with
      | .error ret => some (ret, a)
      | .ok L => some (start env ⟨path, L⟩ 0)
    else some (rest.initCode, a)
  | .tools rest held bound more =>
    if rest = .idle then
      if bound then some (start env held (more + 1)) else none
    else some (rest.initCode, a)
  | .active _ _ => some (.errAlreadyInitialized, a)

/-- A finalization of MPI. -/
def finalize (env : Env) (a : Sharing) : ReturnCode × Sharing :=
  match a with
  | .closed rest => (rest.finalizeCode, a)
  | .tools rest _ _ _ => (rest.finalizeCode, a)
  | .active held others =>
    (ofBackend env.mpiFinalize,
      leave (if env.mpiFinalize = 0 then .finalized else .finalizeFailed) held others)

/-- The tools interface comes, whatever the backend answers it. There is no answer if the library
lacks its function. -/
def toolsInit (p : Platform) (env : Env) (a : Sharing) : Option (ReturnCode × Sharing) :=
  match a with
  | .closed rest =>
    match acquire p env (detectBackend p env) with
    | .error ret => some (ret, a)
    | .ok L =>
      if L.exports "MPI_T_init_thread" then
        some (ofBackend env.mpitInit, .tools rest ⟨detectBackend p env, L⟩ true 0)
      else none
  | .tools rest held bound more =>
    if held.library.exports "MPI_T_init_thread" then
      some (ofBackend env.mpitInit, .tools rest held bound (more + 1))
    else none
  | .active held others =>
    if held.library.exports "MPI_T_init_thread" then
      some (ofBackend env.mpitInit, .active held (others + 1))
    else none

/-- The tools interface goes. -/
def toolsFinalize (env : Env) (a : Sharing) : Option (ReturnCode × Sharing) :=
  match a with
  | .closed _ => none
  | .tools rest held bound more =>
    if held.library.exports "MPI_T_finalize" then
      some (ofBackend env.mpitFinalize,
        match more with
        | 0 => .closed rest
        | more + 1 => .tools rest held bound more)
    else none
  | .active _ 0 => none
  | .active held (others + 1) =>
    if held.library.exports "MPI_T_finalize" then
      some (ofBackend env.mpitFinalize, .active held others)
    else none

/-- One call: its answer, and who holds the library then. -/
def respond (p : Platform) (a : Sharing) (c : Call) : Option (ReturnCode × Sharing) :=
  match c.op with
  | .init => a.enter p c.env (detectBackend p c.env)
  | .initThread required provided =>
    if (required = 0 ∨ required = 1 ∨ required = 2 ∨ required = 3) ∧ provided then
      a.enter p c.env (detectBackend p c.env)
    else some (.errInvalidArgument, a)
  | .initWith none => some (.errNoBackend, a)
  | .initWith (some name) => a.enter p c.env (libraryFor name)
  | .finalize => some (a.finalize c.env)
  | .mpitInitThread => a.toolsInit p c.env
  | .mpitFinalize => a.toolsFinalize c.env

/-- The call is no `unimpi_init_with` over a library that the tools interface holds. -/
def Permits (a : Sharing) (c : Call) : Prop :=
  ∀ name, c.op = .initWith (some name) → ∀ held bound more, a ≠ .tools .idle held bound more

end Sharing

/-- One call of the facade: its answer and the state then. There is none if it faults, or finalizes
the tools interface while no call is unmatched. -/
def Sys.respond (p : Platform) (s : Sys) (c : Call) : Option (ReturnCode × Sys) :=
  if c.op = .mpitFinalize ∧ s.unmatched = 0 then none
  else match exec p c.op c.env s.core with
    | .ok (ret, core) => some (ret, ⟨core, s.unmatchedAfter p c⟩)
    | .error _ => none

/-! ## What the states have in common -/

/-- The lifecycle state shows that MPI is at rest. -/
def Rest.Shows (rest : Rest) (g : LifecycleState) : Prop :=
  match rest with
  | idle => g = .never ∨ g = .initFailed
  | finalized => g = .finalized
  | finalizeFailed => g = .finalizeFailed

namespace Sharing

def Shows (a : Sharing) (g : LifecycleState) : Prop :=
  match a with
  | .closed rest => rest.Shows g
  | .tools rest _ _ _ => rest.Shows g
  | .active _ _ => g = .active

/-- How often the tools interface holds the library. -/
def toolsCount : Sharing → ℕ
  | .closed _ => 0
  | .tools _ _ _ more => more + 1
  | .active _ others => others

def held : Sharing → Option Holding
  | .closed _ => none
  | .tools _ held _ _ => some held
  | .active held _ => some held

/-- Whether the members of MPI are those of the library. -/
def bound : Sharing → Bool
  | .closed _ => false
  | .tools _ _ bound _ => bound
  | .active _ _ => true

end Sharing

/-- The tables are those of the library, but the members of MPI may have been lost. -/
structure Installed (p : Platform) (held : Holding) (bound : Bool) (st : State) : Prop where
  core : validateCore held.library = true
  serves : bound = true → Serves p held.path held.library st
  lost : bound = false → st.tables.unimpi = fun _ => .null
  tools : st.tables.unimpiMt = fun slot => held.library.bind slot.symbol

/-- The state is what the abstract one says. -/
structure Stands (p : Platform) (a : Sharing) (st : State) : Prop where
  state : a.Shows st.gState
  handle : st.gHandle = a.held.map Holding.library
  loaded : st.gBackendLoaded = a.held.isSome
  installed : ∀ held ∈ a.held, Installed p held a.bound st

/-- The facade stands as the abstract one says. -/
structure Views (p : Platform) (a : Sharing) (s : Sys) : Prop extends Inv s where
  stands : Stands p a s.core
  unmatched : s.unmatched = a.toolsCount
  neutral : NameNeutral s.core

/-- The two answer alike and stand alike, or neither answers. -/
abbrev Agrees (p : Platform) :
    Option (ReturnCode × Sharing) → Option (ReturnCode × Sys) → Prop :=
  Option.Rel fun x y => x.1 = y.1 ∧ Views p x.2 y.2

/-! ## Loading -/

section

variable {p : Platform} {env : Env} {path : CString} {st st' : State} {s : Sys} {a a' : Sharing}
  {op : Op} {ret : ReturnCode} {held : Holding} {L : Library} {t : Tables}

/-- Loading from any state ends as the library alone says. -/
theorem acquire_eq (h : NameNeutral st) : acquire p env path =
    match loadOutcome p env path st with
    | .filled L _ => .ok L
    | o => .error o.code := by
  unfold acquire loadOutcome
  cases loaderLoad env path with
  | error ret => rfl
  | ok L =>
    have hsome := fill_isSome (identifyBackend p L) L .initial (vtableInitStart st.tables)
    dsimp only
    rw [checkPlatformSupport_of_neutral p _ h, ← Option.not_isSome, hsome]
    cases validateCore L with
    | false => rfl
    | true =>
      cases backendSupported p (identifyBackend p L) with
      | false => rfl
      | true => cases fill (identifyBackend p L) L (vtableInitStart st.tables) <;> rfl

theorem acquire_of_filled (h : NameNeutral st) (ho : loadOutcome p env path st = .filled L t) :
    acquire p env path = .ok L := by
  rw [acquire_eq h, ho]

theorem acquire_of_failed (h : NameNeutral st) (ho : (loadOutcome p env path st).code ≠ .ok) :
    acquire p env path = .error (loadOutcome p env path st).code := by
  rw [acquire_eq h]
  cases hout : loadOutcome p env path st with
  | filled L t =>
    rw [hout] at ho
    exact absurd rfl ho
  | _ => rfl

/-- A filled library is installed. -/
theorem installed_of_filled (ho : loadOutcome p env path st = .filled L t) :
    Installed p ⟨path, L⟩ true ((LoadOutcome.filled L t).apply p path st) where
  core := (loaderLoad_of_filled ho).2.1
  serves _ := serves_of_filled ho
  lost h := Bool.noConfusion h
  tools := fill_unimpiMt (loaderLoad_of_filled ho).2.2.2

theorem Installed.congr {bound : Bool} (h : Installed p held bound st)
    (hidentity : st'.gBackendIdentity = st.gBackendIdentity)
    (hunimpi : st'.tables.unimpi = st.tables.unimpi)
    (hmt : st'.tables.unimpiMt = st.tables.unimpiMt) : Installed p held bound st' where
  core := h.core
  serves hbound := (h.serves hbound).congr hidentity hunimpi
  lost hbound := hunimpi.trans (h.lost hbound)
  tools := hmt.trans h.tools

/-- What MPI leaves when it goes: its members are lost, the table of the tools interface is not. -/
theorem Installed.cleared {bound : Bool} (h : Installed p held bound st)
    (hunimpi : st'.tables.unimpi = fun _ => .null)
    (hmt : st'.tables.unimpiMt = st.tables.unimpiMt) : Installed p held false st' where
  core := h.core
  serves hbound := Bool.noConfusion hbound
  lost _ := hunimpi
  tools := hmt.trans h.tools

/-- MPI can be called through the members of an open library. -/
theorem Installed.usable (h : Installed p held true st)
    (hopen : st.linker.IsOpen held.library.handle) : Usable st := by
  refine usable_of_bind h.core ?_ hopen
  rintro slot (rfl | rfl | rfl) <;> exact (h.serves rfl).natives _ rfl

theorem Stands.of_closed {rest : Rest} (hstate : rest.Shows st.gState) (hhandle : st.gHandle = none)
    (hloaded : st.gBackendLoaded = false) : Stands p (.closed rest) st :=
  ⟨hstate, hhandle, hloaded, fun _ h => absurd h (Option.not_mem_none _)⟩

theorem Stands.of_held (hheld : a.held = some held) (hstate : a.Shows st.gState)
    (hhandle : st.gHandle = some held.library) (hloaded : st.gBackendLoaded = true)
    (hinstalled : Installed p held a.bound st) : Stands p a st where
  state := hstate
  handle := by rw [hheld, hhandle, Option.map_some]
  loaded := by rw [hheld, hloaded, Option.isSome_some]
  installed := by
    intro held' hheld'
    obtain rfl : held = held' := Option.some.inj (hheld.symm.trans hheld')
    exact hinstalled

theorem Stands.handle_of_held (h : Stands p a st) (hheld : a.held = some held) :
    st.gHandle = some held.library := by
  rw [h.handle, hheld, Option.map_some]

theorem Stands.loaded_of_held (h : Stands p a st) (hheld : a.held = some held) :
    st.gBackendLoaded = true := by
  rw [h.loaded, hheld, Option.isSome_some]

/-- Getting ready without a loaded library installs one. -/
theorem Ready.installed {r : Bool} (h : Ready p env path st r st')
    (hl : st.gBackendLoaded = false) :
    ∃ L t, loadOutcome p env path st = .filled L t ∧ st'.gHandle = some L ∧
      st'.linker = st.linker.openLib L.handle ∧ Installed p ⟨path, L⟩ true st' := by
  cases h with
  | already hl' => exact absurd hl' (ne_true_of_eq_false hl)
  | fresh _ ho => exact ⟨_, _, ho, rfl, rfl, (installed_of_filled ho).congr rfl rfl rfl⟩
  | direct ho => exact ⟨_, _, ho, rfl, rfl, installed_of_filled ho⟩

/-! ## States at rest -/

theorem Rest.initCode_eq_ok_iff {rest : Rest} : rest.initCode = .ok ↔ rest = .idle := by
  cases rest <;> decide

theorem Rest.Shows.check {rest : Rest} (h : rest.Shows st.gState) :
    checkCanInitialize st = rest.initCode := by
  cases rest with
  | idle => rcases h with h | h <;> simp [checkCanInitialize, h, Rest.initCode]
  | finalized | finalizeFailed =>
    simp only [Rest.Shows] at h
    simp [checkCanInitialize, h, Rest.initCode]

theorem Rest.Shows.ne_active {rest : Rest} (h : rest.Shows st.gState) : st.gState ≠ .active := by
  intro hactive
  rw [hactive] at h
  cases rest <;> simp [Rest.Shows] at h

theorem Rest.Shows.finalize {rest : Rest} (h : rest.Shows st.gState) :
    finalize env st = .ok (rest.finalizeCode, st) := by
  cases rest with
  | idle => rcases h with h | h <;> simp [UniMPI.finalize, h, Rest.finalizeCode]
  | finalized | finalizeFailed =>
    simp only [Rest.Shows] at h
    simp [UniMPI.finalize, h, Rest.finalizeCode]

theorem Sharing.toolsCount_leave (rest : Rest) (held : Holding) (others : ℕ) :
    (leave rest held others).toolsCount = others := by
  cases others <;> rfl

/-! ## One call -/

/-- A call that returns is answered alike if the abstract facade gives its answer and stands as the
state it leaves. -/
theorem Views.answers (hv : Views p a s) (hbal : op ≠ .mpitFinalize ∨ 0 < s.unmatched)
    (hexec : exec p op env s.core = .ok (ret, st')) (hstands : Stands p a' st')
    (hcount : s.unmatchedAfter p ⟨op, env⟩ = a'.toolsCount) :
    Agrees p (some (ret, a')) (s.respond p ⟨op, env⟩) := by
  have hpermitted : ¬(op = .mpitFinalize ∧ s.unmatched = 0) := by
    rintro ⟨hop, hzero⟩
    exact hbal.elim (fun hne => hne hop) fun hpos => absurd hzero (Nat.ne_of_gt hpos)
  have hstep : Step p s ⟨op, env⟩ ⟨st', s.unmatchedAfter p ⟨op, env⟩⟩ := by
    unfold Step Sys.after
    rw [if_neg hpermitted, hexec]
  rw [Sys.respond, if_neg hpermitted, hexec]
  exact .some ⟨rfl, { hv.toInv.step hstep with
    stands := hstands
    unmatched := hcount
    neutral := hv.neutral.step (exec_effect hexec) }⟩

theorem Sys.respond_of_fault {f : Fault} (h : exec p op env s.core = .error f) :
    s.respond p ⟨op, env⟩ = none := by
  unfold Sys.respond
  split_ifs
  · rfl
  · rw [h]

theorem Op.ne_mpitFinalize (h : op.isTools = false) : op ≠ .mpitFinalize := by
  rintro rfl
  cases h

theorem Sys.unmatchedAfter_of_mpi (h : op.isTools = false) :
    s.unmatchedAfter p ⟨op, env⟩ = s.unmatched := by
  cases op with
  | init | initThread _ _ | initWith _ | finalize => rfl
  | mpitInitThread | mpitFinalize => cases h

/-- So is a call of MPI that changes nothing. -/
theorem Views.answers_refused (hv : Views p a s) (hop : op.isTools = false)
    (hexec : exec p op env s.core = .ok (ret, s.core)) :
    Agrees p (some (ret, a)) (s.respond p ⟨op, env⟩) := by
  exact hv.answers (Or.inl (Op.ne_mpitFinalize hop)) hexec hv.stands
    ((Sys.unmatchedAfter_of_mpi hop).trans hv.unmatched)

theorem Op.mpi_of_path (h : op.path p env = some path) : op.isTools = false := by
  refine Bool.eq_false_iff.2 fun htools => ?_
  rw [op.path_of_tools htools] at h
  cases h

/-! ### Initialisations -/

theorem Op.path_initThread {required : Int} {provided : Bool}
    (h : (Op.initThread required provided).path p env = some path) :
    ¬(required ≠ 0 ∧ required ≠ 1 ∧ required ≠ 2 ∧ required ≠ 3) ∧ provided = true := by
  simp only [Op.path] at h
  split_ifs at h with hargs
  exact ⟨by omega, hargs.2⟩

theorem exec_of_not_check (hpath : op.path p env = some path)
    (hcheck : checkCanInitialize st ≠ .ok) :
    exec p op env st = .ok (checkCanInitialize st, st) := by
  cases op with
  | init => simp [exec, init, hcheck]
  | initThread required provided =>
    obtain ⟨hrequired, hprovided⟩ := Op.path_initThread hpath
    simp [exec, initThread, hrequired, hprovided, hcheck]
  | initWith name =>
    cases name with
    | none => cases hpath
    | some name => simp [exec, initWith, hcheck]
  | finalize | mpitInitThread | mpitFinalize => cases hpath

theorem exec_ok_of_path (hb : st.linker.Balanced) (hpath : op.path p env = some path)
    (husable : checkCanInitialize st = .ok → st.gBackendLoaded = true → Usable st) :
    ∃ ret st', exec p op env st = .ok (ret, st') := by
  have hok : faultOf (exec p op env st) = none := by
    cases op with
    | init => exact init_faultOf hb husable
    | initThread required provided => exact initThread_faultOf hb husable
    | initWith name => exact initWith_faultOf hb
    | finalize | mpitInitThread | mpitFinalize => cases hpath
  obtain ⟨⟨ret, st'⟩, hexec⟩ := exists_ok_of_faultOf hok
  exact ⟨ret, st', hexec⟩

/-- With the members of MPI lost, the backend is called through a null member. -/
theorem initializeBackend_of_lost {threadMode : Bool} (hl : st.gBackendLoaded = true)
    (hlost : st.tables.unimpi = fun _ => .null) :
    initializeBackend p env threadMode st = .error (.null .init) := by
  have hloaded : ensureLoaded p env st = (.ok, st) := if_pos hl
  simp [initializeBackend, hloaded, initSlot, hlost, callSlot, Tables.target]

theorem exec_of_lost (hpath : op.path p env = some path) (hr : op.reuses = true)
    (hcheck : checkCanInitialize st = .ok) (hl : st.gBackendLoaded = true)
    (hlost : st.tables.unimpi = fun _ => .null) : exec p op env st = .error (.null .init) := by
  have hcall : ∀ threadMode,
      initializeBackend p env threadMode { st with gState := .initializing } =
        .error (.null .init) := fun _ => initializeBackend_of_lost hl hlost
  cases op with
  | init => simp [exec, init, hcheck, hcall]
  | initThread required provided =>
    obtain ⟨hrequired, hprovided⟩ := Op.path_initThread hpath
    simp [exec, initThread, hrequired, hprovided, hcheck, hcall]
  | initWith name => cases hr
  | finalize | mpitInitThread | mpitFinalize => cases hpath

/-- A library is loaded and MPI started from it. -/
theorem Views.enter_closed (hv : Views p (.closed .idle) s) (hpath : op.path p env = some path) :
    Agrees p ((Sharing.closed .idle).enter p env path) (s.respond p ⟨op, env⟩) := by
  have hrest : Rest.idle.Shows s.core.gState := hv.stands.state
  have hcheck : checkCanInitialize s.core = .ok := hrest.check
  have hl : s.core.gBackendLoaded = false := hv.stands.loaded
  have hop := Op.mpi_of_path hpath
  have hbal : op ≠ .mpitFinalize ∨ 0 < s.unmatched := Or.inl (Op.ne_mpitFinalize hop)
  have hcount : s.unmatchedAfter p ⟨op, env⟩ = 0 :=
    (Sys.unmatchedAfter_of_mpi hop).trans hv.unmatched
  obtain ⟨ret, st', hexec⟩ := exec_ok_of_path hv.balanced hpath
    fun _ hl' => absurd hl' (ne_true_of_eq_false hl)
  rw [Sharing.enter, if_pos rfl]
  cases exec_effect hexec with
  | refused hret hwhy => exact absurd hwhy (not_refused hcheck hpath)
  | loadFailed hcheck' hpath' hl' ho =>
    cases hpath.symm.trans hpath'
    rw [acquire_of_failed hv.neutral ho]
    exact hv.answers hbal hexec (.of_closed (Or.inr rfl) (LoadOutcome.apply_gHandle_of_failed ho)
      ((LoadOutcome.apply_gBackendLoaded ..).trans hl)) hcount
  | initFailed hcheck' hpath' hready hret =>
    cases hpath.symm.trans hpath'
    rcases initFailedState_cases hv.toInv hready with ⟨-, hl', -⟩ | ⟨L, t, ho, -, heq⟩
    · exact absurd hl' (ne_true_of_eq_false hl)
    · rw [heq] at hexec
      rw [acquire_of_filled hv.neutral ho]
      dsimp only
      rw [Sharing.start, if_neg hret]
      exact hv.answers hbal hexec (.of_closed (Or.inr rfl) rfl hl) hcount
  | started level hcheck' hpath' hready hret hlevel =>
    cases hpath.symm.trans hpath'
    obtain ⟨L, t, ho, hhandle, -, hinstalled⟩ := hready.installed hl
    rw [acquire_of_filled hv.neutral ho]
    dsimp only
    rw [Sharing.start, if_pos hret]
    exact hv.answers hbal hexec
      (.of_held rfl rfl hhandle rfl (hinstalled.congr rfl rfl rfl)) hcount
  | finalized | mpitLoadFailed | mpitStarted | mpitFinalized => cases hpath

/-- MPI is started from the library of the tools interface. -/
theorem Views.enter_tools {bound : Bool} {more : ℕ}
    (hv : Views p (.tools .idle held bound more) s) (hpath : op.path p env = some path)
    (hr : op.reuses = true) :
    Agrees p ((Sharing.tools .idle held bound more).enter p env path)
      (s.respond p ⟨op, env⟩) := by
  have hrest : Rest.idle.Shows s.core.gState := hv.stands.state
  have hcheck : checkCanInitialize s.core = .ok := hrest.check
  have hl : s.core.gBackendLoaded = true := hv.stands.loaded
  have hhandle : s.core.gHandle = some held.library := hv.stands.handle
  have hinstalled : Installed p held bound s.core := hv.stands.installed held rfl
  have hop := Op.mpi_of_path hpath
  have hbal : op ≠ .mpitFinalize ∨ 0 < s.unmatched := Or.inl (Op.ne_mpitFinalize hop)
  have hcount : s.unmatchedAfter p ⟨op, env⟩ = more + 1 :=
    (Sys.unmatchedAfter_of_mpi hop).trans hv.unmatched
  rw [Sharing.enter, if_pos rfl]
  cases bound with
  | false =>
    rw [if_neg Bool.false_ne_true,
      Sys.respond_of_fault (exec_of_lost hpath hr hcheck hl (hinstalled.lost rfl))]
    exact .none
  | true =>
    obtain ⟨ret, st', hexec⟩ := exec_ok_of_path hv.balanced hpath fun _ _ =>
      hinstalled.usable (hv.open_of_handle _ hhandle)
    rw [if_pos rfl]
    cases exec_effect hexec with
    | refused hret hwhy => exact absurd hwhy (not_refused hcheck hpath)
    | loadFailed hcheck' hpath' hl' ho => exact absurd hl (ne_true_of_eq_false (hl' hr))
    | initFailed hcheck' hpath' hready hret =>
      rcases initFailedState_cases hv.toInv hready with ⟨-, -, heq⟩ | ⟨L, t, -, hl', -⟩
      · rw [heq] at hexec
        rw [Sharing.start, if_neg hret]
        exact hv.answers hbal hexec
          (.of_held rfl (Or.inr rfl) hhandle hl (hinstalled.cleared rfl rfl)) hcount
      · exact absurd hl (ne_true_of_eq_false (hl' hr))
    | started level hcheck' hpath' hready hret hlevel =>
      rw [hr] at hready
      cases hready with
      | already =>
        rw [Sharing.start, if_pos hret]
        exact hv.answers hbal hexec
          (.of_held rfl rfl hhandle rfl (hinstalled.congr rfl rfl rfl)) hcount
      | fresh hl' => exact absurd hl (ne_true_of_eq_false hl')
    | finalized | mpitLoadFailed | mpitStarted | mpitFinalized => cases hpath

/-- An initialisation that the arguments allow. -/
theorem Views.enter (hv : Views p a s) (hpath : op.path p env = some path)
    (hpermits : a.Permits ⟨op, env⟩) :
    Agrees p (a.enter p env path) (s.respond p ⟨op, env⟩) := by
  have hop := Op.mpi_of_path hpath
  have hrefused : ∀ {ret}, checkCanInitialize s.core = ret → ret ≠ .ok →
      Agrees p (some (ret, a)) (s.respond p ⟨op, env⟩) := by
    rintro ret rfl hret
    exact hv.answers_refused hop (exec_of_not_check hpath hret)
  cases a with
  | closed rest =>
    have hrest : rest.Shows s.core.gState := hv.stands.state
    by_cases hidle : rest = .idle
    · subst hidle
      exact hv.enter_closed hpath
    · rw [Sharing.enter, if_neg hidle]
      exact hrefused hrest.check (mt Rest.initCode_eq_ok_iff.1 hidle)
  | tools rest held bound more =>
    have hrest : rest.Shows s.core.gState := hv.stands.state
    by_cases hidle : rest = .idle
    · subst hidle
      refine hv.enter_tools hpath ?_
      cases op with
      | initWith name =>
        cases name with
        | none => cases hpath
        | some name => exact absurd rfl (hpermits name rfl held bound more)
      | _ => rfl
    · rw [Sharing.enter, if_neg hidle]
      exact hrefused hrest.check (mt Rest.initCode_eq_ok_iff.1 hidle)
  | active held others =>
    have hactive : s.core.gState = .active := hv.stands.state
    exact hrefused (by rw [checkCanInitialize, hactive]) (by decide)

/-! ### Finalizations -/

/-- What is left when MPI goes. -/
theorem Stands.leave {rest : Rest} {others : ℕ} (hv : Views p (.active held others) s)
    (hrest : rest.Shows (finalizedState env s.core).gState) :
    Stands p (Sharing.leave rest held others) (finalizedState env s.core) := by
  have hhandle : s.core.gHandle = some held.library := hv.stands.handle
  have hrefcount : s.core.gRefcount = 1 + others := by
    rw [hv.toInv.refcount_of_active hv.stands.state, hv.unmatched]
    rfl
  cases others with
  | zero =>
    have hlast : releaseRef (cleanup s.core) = _ :=
      releaseRef_of_last (L := held.library) (by simp [cleanup, hrefcount]) hhandle
    refine .of_closed hrest ?_ ?_
    · simp only [finalizedState, clearBackendIdentity, hlast]
    · simp only [finalizedState, clearBackendIdentity, hlast]
  | succ more =>
    have hmore : releaseRef (cleanup s.core) = _ :=
      releaseRef_of_held (Or.inl (by simp only [cleanup, hrefcount]; omega))
    have hinstalled : Installed p held true s.core := hv.stands.installed held rfl
    refine .of_held rfl hrest ?_ ?_ (hinstalled.cleared ?_ ?_)
    · simp only [finalizedState, clearBackendIdentity, hmore]
      exact hhandle
    · simp only [finalizedState, clearBackendIdentity, hmore]
      exact hv.stands.loaded
    · simp only [finalizedState, clearBackendIdentity, hmore]
      rfl
    · simp only [finalizedState, clearBackendIdentity, hmore]
      rfl

theorem Views.finalize (hv : Views p a s) :
    Agrees p (some (a.finalize env)) (s.respond p ⟨.finalize, env⟩) := by
  cases a with
  | closed rest =>
    have hrest : rest.Shows s.core.gState := hv.stands.state
    exact hv.answers_refused rfl hrest.finalize
  | tools rest held bound more =>
    have hrest : rest.Shows s.core.gState := hv.stands.state
    exact hv.answers_refused rfl hrest.finalize
  | active held others =>
    have hactive : s.core.gState = .active := hv.stands.state
    have hinstalled : Installed p held true s.core := hv.stands.installed held rfl
    have husable := hinstalled.usable (hv.open_of_handle _ hv.stands.handle)
    obtain ⟨⟨ret, st'⟩, hexec⟩ := exists_ok_of_faultOf
      (@finalize_faultOf env s.core fun _ => husable)
    replace hexec : exec p .finalize env s.core = .ok (ret, st') := hexec
    cases exec_effect hexec with
    | refused hret hwhy =>
      rcases hwhy with ⟨-, hne⟩ | ⟨hinit, -⟩
      · exact absurd hactive hne
      · cases hinit
    | finalized _ hcall =>
      have hrest : (if env.mpiFinalize = 0 then Rest.finalized else .finalizeFailed).Shows
          (finalizedState env s.core).gState := by
        simp only [finalizedState]
        split_ifs <;> rfl
      exact hv.answers (Or.inl (by decide)) hexec (.leave hv hrest)
        (hv.unmatched.trans (Sharing.toolsCount_leave ..).symm)
    | loadFailed hcheck hpath | initFailed hcheck hpath | started level hcheck hpath => cases hpath

/-! ### The tools interface -/

theorem callMtSlot_of_bind {slot : MtSlot} (h : st.tables.unimpiMt slot = L.bind slot.symbol)
    (hopen : st.linker.IsOpen L.handle) : callMtSlot st slot =
      if L.exports slot.symbol then .ok () else .error (.mtNull slot) := by
  rw [callMtSlot, h]
  unfold Library.bind
  split_ifs with hexports
  · exact if_pos hopen
  · rfl

theorem exec_mpitInitThread (hready : Ready p env (detectBackend p env) st true st')
    (hmt : st'.tables.unimpiMt = fun slot => L.bind slot.symbol)
    (hopen : st'.linker.IsOpen L.handle) :
    exec p .mpitInitThread env st =
      if L.exports "MPI_T_init_thread" then
        .ok (ofBackend env.mpitInit,
          { st' with gRefcount := st'.gRefcount + 1, gMpitInited := true })
      else .error (.mtNull .tInitThread) := by
  have hcall : callMtSlot { st' with gRefcount := st'.gRefcount + 1, gMpitInited := true }
      .tInitThread = if L.exports "MPI_T_init_thread" then .ok () else .error _ :=
    callMtSlot_of_bind (congrFun hmt .tInitThread) hopen
  rw [exec, mpitInitThread, ensureLoaded_of_ready hready]
  dsimp only
  rw [if_neg (not_not.2 rfl), hcall]
  split_ifs <;> rfl

theorem exec_mpitFinalize (hmt : st.tables.unimpiMt = fun slot => L.bind slot.symbol)
    (hopen : st.linker.IsOpen L.handle) :
    exec p .mpitFinalize env st =
      if L.exports "MPI_T_finalize" then
        .ok (ofBackend env.mpitFinalize, releaseRef { st with gMpitInited := false })
      else .error (.mtNull .tFinalize) := by
  have hcall : callMtSlot st .tFinalize =
      if L.exports "MPI_T_finalize" then .ok () else .error _ :=
    callMtSlot_of_bind (congrFun hmt .tFinalize) hopen
  rw [exec, mpitFinalize, hcall]
  split_ifs <;> rfl

/-- The tools interface comes when its library is ready. -/
theorem Views.toolsInit_of_ready (hv : Views p a s)
    (hready : Ready p env (detectBackend p env) s.core true st')
    (hopen : st'.linker.IsOpen held.library.handle) (hstands : Stands p a' st')
    (hheld : a'.held = some held) (hcount : a'.toolsCount = s.unmatched + 1) :
    Agrees p
      (if held.library.exports "MPI_T_init_thread" then some (ofBackend env.mpitInit, a')
        else none)
      (s.respond p ⟨.mpitInitThread, env⟩) := by
  have hexec := exec_mpitInitThread hready (hstands.installed held hheld).tools hopen
  have hafter : s.unmatchedAfter p ⟨.mpitInitThread, env⟩ = s.unmatched + 1 := by
    simp only [Sys.unmatchedAfter, ensureLoaded_of_ready hready, if_true]
  split_ifs with hexports
  · rw [if_pos hexports] at hexec
    refine hv.answers (Or.inl (by decide)) hexec ?_ (hafter.trans hcount.symm)
    exact ⟨hstands.state, hstands.handle, hstands.loaded, fun held hheld =>
      (hstands.installed held hheld).congr rfl rfl rfl⟩
  · rw [if_neg hexports] at hexec
    rw [Sys.respond_of_fault hexec]
    exact .none

theorem Views.toolsInit (hv : Views p a s) :
    Agrees p (a.toolsInit p env) (s.respond p ⟨.mpitInitThread, env⟩) := by
  have hheld : ∀ {held}, a.held = some held → s.core.gBackendLoaded = true ∧
      s.core.linker.IsOpen held.library.handle := fun hheld =>
    ⟨hv.stands.loaded_of_held hheld, hv.open_of_handle _ (hv.stands.handle_of_held hheld)⟩
  cases a with
  | closed rest =>
    have hrest : rest.Shows s.core.gState := hv.stands.state
    have hl : s.core.gBackendLoaded = false := hv.stands.loaded
    rw [Sharing.toolsInit]
    rcases ensureLoaded_cases p env s.core with ⟨st', hready⟩ | ⟨-, ho⟩
    · obtain ⟨L, t, ho, hhandle, hlinker, hinstalled⟩ := hready.installed hl
      rw [acquire_of_filled hv.neutral ho]
      have hstands : Stands p (.tools rest ⟨detectBackend p env, L⟩ true 0) st' := by
        refine .of_held rfl ?_ hhandle hready.loaded hinstalled
        rw [hready.gState]
        exact hrest
      refine hv.toolsInit_of_ready hready ?_ hstands rfl (congrArg (· + 1) hv.unmatched.symm)
      rw [hlinker]
      exact Linker.isOpen_openLib_self (hv.balanced L.handle)
    · have hensure := ensureLoaded_of_failed hl ho
      have hexec : exec p .mpitInitThread env s.core = .ok
          ((loadOutcome p env (detectBackend p env) s.core).code,
            (loadOutcome p env (detectBackend p env) s.core).apply p (detectBackend p env)
              s.core) := by
        rw [exec, mpitInitThread, hensure]
        exact if_pos ho
      rw [acquire_of_failed hv.neutral ho]
      refine hv.answers (Or.inl (by decide)) hexec
        (.of_closed ?_ (LoadOutcome.apply_gHandle_of_failed ho)
          ((LoadOutcome.apply_gBackendLoaded ..).trans hl)) ?_
      · rw [LoadOutcome.apply_gState_eq]
        exact hrest
      · simp only [Sys.unmatchedAfter, hensure]
        rw [if_neg ho]
        exact hv.unmatched
  | tools rest held bound more =>
    obtain ⟨hl, hopen⟩ := hheld rfl
    exact hv.toolsInit_of_ready (.already hl) hopen
      ⟨hv.stands.state, hv.stands.handle, hv.stands.loaded, hv.stands.installed⟩ rfl
      (congrArg (· + 1) hv.unmatched.symm)
  | active held others =>
    obtain ⟨hl, hopen⟩ := hheld rfl
    exact hv.toolsInit_of_ready (.already hl) hopen
      ⟨hv.stands.state, hv.stands.handle, hv.stands.loaded, hv.stands.installed⟩ rfl
      (congrArg (· + 1) hv.unmatched.symm)

/-- The tools interface goes and leaves a state that stands so. -/
theorem Views.toolsFinalize_of_held (hv : Views p a s) (hheld : a.held = some held)
    (hcount : s.unmatched = a'.toolsCount + 1)
    (hstands : Stands p a' (releaseRef { s.core with gMpitInited := false })) :
    Agrees p
      (if held.library.exports "MPI_T_finalize" then some (ofBackend env.mpitFinalize, a')
        else none)
      (s.respond p ⟨.mpitFinalize, env⟩) := by
  have hexec := @exec_mpitFinalize p env _ _ (hv.stands.installed held hheld).tools
    (hv.open_of_handle _ (hv.stands.handle_of_held hheld))
  split_ifs with hexports
  · rw [if_pos hexports] at hexec
    refine hv.answers (Or.inr ?_) hexec hstands ?_
    · rw [hcount]
      exact Nat.succ_pos _
    · simp only [Sys.unmatchedAfter, hcount, Nat.add_sub_cancel]
  · rw [if_neg hexports] at hexec
    rw [Sys.respond_of_fault hexec]
    exact .none

/-- A release that is not the last keeps what the library installed. -/
theorem Stands.release (h : Stands p a st) (hmore : 1 < st.gRefcount)
    (hshows : ∀ g, a.Shows g → a'.Shows g) (hheld : a'.held = a.held)
    (hbound : a'.bound = a.bound) :
    Stands p a' (releaseRef { st with gMpitInited := false }) := by
  have hrelease : releaseRef { st with gMpitInited := false } = _ :=
    releaseRef_of_held (Or.inl hmore)
  rw [hrelease]
  refine ⟨hshows _ h.state, ?_, ?_, ?_⟩
  · rw [hheld]
    exact h.handle
  · rw [hheld]
    exact h.loaded
  · rw [hheld, hbound]
    exact fun held hheld => (h.installed held hheld).congr rfl rfl rfl

theorem Views.toolsFinalize (hv : Views p a s) :
    Agrees p (a.toolsFinalize env) (s.respond p ⟨.mpitFinalize, env⟩) := by
  have hnone : s.unmatched = 0 → s.respond p ⟨.mpitFinalize, env⟩ = none := fun hzero =>
    if_pos ⟨rfl, hzero⟩
  have hrefcount := hv.refcount
  cases a with
  | closed rest =>
    rw [Sharing.toolsFinalize, hnone hv.unmatched]
    exact .none
  | tools rest held bound more =>
    have hrest : rest.Shows s.core.gState := hv.stands.state
    rw [if_neg hrest.ne_active, hv.unmatched] at hrefcount
    refine hv.toolsFinalize_of_held rfl ?_ ?_
    · rw [hv.unmatched]
      cases more <;> rfl
    · cases more with
      | zero =>
        have hlast : releaseRef { s.core with gMpitInited := false } = _ :=
          releaseRef_of_last (L := held.library) (by simp [hrefcount, Sharing.toolsCount])
            hv.stands.handle
        rw [hlast]
        exact .of_closed hrest rfl rfl
      | succ more =>
        refine hv.stands.release ?_ (fun _ => id) rfl rfl
        simp only [hrefcount, Sharing.toolsCount]
        omega
  | active held others =>
    cases others with
    | zero =>
      rw [Sharing.toolsFinalize, hnone hv.unmatched]
      exact .none
    | succ others =>
      have hactive : s.core.gState = .active := hv.stands.state
      rw [if_pos hactive, hv.unmatched] at hrefcount
      refine hv.toolsFinalize_of_held rfl hv.unmatched ?_
      refine hv.stands.release ?_ (fun _ => id) rfl rfl
      simp only [hrefcount, Sharing.toolsCount]
      omega

/-- One call of the facade refines one call of the abstract one. -/
theorem Views.respond (hv : Views p a s) {c : Call} (hpermits : a.Permits c) :
    Agrees p (a.respond p c) (s.respond p c) := by
  obtain ⟨op, env⟩ := c
  cases op with
  | init => exact hv.enter rfl hpermits
  | initThread required provided =>
    rw [Sharing.respond]
    dsimp only
    split_ifs with hargs
    · exact hv.enter (if_pos hargs) hpermits
    · refine hv.answers_refused rfl ?_
      simp only [exec, initThread]
      cases provided with
      | false => split_ifs <;> simp at *
      | true => exact if_pos (by simpa using hargs)
  | initWith name =>
    cases name with
    | none => exact hv.answers_refused rfl rfl
    | some name => exact hv.enter rfl hpermits
  | finalize => exact hv.finalize
  | mpitInitThread => exact hv.toolsInit
  | mpitFinalize => exact hv.toolsFinalize

end

/-! ## Runs -/

/-- No call of the run is an `unimpi_init_with` over a library that the tools interface holds. -/
def Sharing.Obeys (p : Platform) (a : Sharing) (calls : List Call) : Prop :=
  AllSteps (fun a c => (stopping (Sharing.respond p) a c).2) (fun a c => ∀ x ∈ a, x.Permits c)
    (some a) calls

/-- The answers of the abstract facade, and how it stands then. -/
def Sharing.run (p : Platform) (a : Sharing) (calls : List Call) :
    List (Option ReturnCode) × Option Sharing :=
  answers (stopping (Sharing.respond p)) (some a) calls

/-- The answers of the facade, and its state then. -/
def Sys.run (p : Platform) (s : Sys) (calls : List Call) :
    List (Option ReturnCode) × Option Sys :=
  answers (stopping (Sys.respond p)) (some s) calls

section

variable {p : Platform} {a : Sharing} {s : Sys} {calls : List Call}

theorem Views.run (hv : Views p a s) (hobeys : a.Obeys p calls) :
    (a.run p calls).1 = (s.run p calls).1 ∧
      Option.Rel (Views p) (a.run p calls).2 (s.run p calls).2 :=
  stopping_simulation (fun _ _ _ hv hpermits => hv.respond hpermits) hobeys (.some hv)

theorem Views.initial : Views p (.closed .idle) Sys.initial where
  toInv := Inv.initial
  stands := .of_closed (Or.inl rfl) rfl rfl
  unmatched := rfl
  neutral := rfl

/-- A program that does not call `unimpi_init_with` obeys. -/
theorem obeys_of_reusing (h : ∀ c ∈ calls, c.op.Reusing) : a.Obeys p calls :=
  allSteps_of_forall (fun c hc _ _ _ name hname => absurd hname (h c hc (some name))) _

/-- Along every list of calls, the facade answers as the abstract one, stops where that one does not
answer, and stands as that one says. -/
theorem facade_refines (h : (Sharing.closed .idle).Obeys p calls) :
    ((Sharing.closed .idle).run p calls).1 = (Sys.initial.run p calls).1 ∧
      Option.Rel (Views p) ((Sharing.closed .idle).run p calls).2 (Sys.initial.run p calls).2 :=
  Views.initial.run h

/-- Where the count is zero and MPI may be initialised, the abstract facade is as in the
beginning. -/
theorem Views.eq_closed (hv : Views p a s) (hzero : s.core.gRefcount = 0)
    (hcheck : checkCanInitialize s.core = .ok) : a = .closed .idle := by
  have hrefcount := hv.refcount
  have hunmatched := hv.unmatched
  cases a with
  | closed rest =>
    have hrest : rest.Shows s.core.gState := hv.stands.state
    rw [Rest.initCode_eq_ok_iff.1 (hrest.check.symm.trans hcheck)]
  | tools rest held bound more =>
    simp only [Sharing.toolsCount] at hunmatched
    split_ifs at hrefcount <;> omega
  | active held others =>
    exact absurd hv.stands.state (not_active_of_check hcheck)

end

/-- Both interfaces come, and both go. -/
def enclosingCalls : List Call :=
  sharedCalls ++ [⟨.finalize, .offering none 0⟩, ⟨.mpitFinalize, .offering none 0⟩,
    ⟨.init, .offering none 0⟩]

theorem obeys_enclosingCalls : (Sharing.closed .idle).Obeys .linux enclosingCalls := by
  refine obeys_of_reusing fun c hc => ?_
  simp only [enclosingCalls, sharedCalls, List.cons_append, List.nil_append, List.mem_cons,
    List.not_mem_nil, or_false] at hc
  rcases hc with rfl | rfl | rfl | rfl | rfl <;> exact fun _ h => Op.noConfusion h

theorem facade_refines_enclosing : (Sys.initial.run .linux enclosingCalls).1 =
    [some .ok, some .ok, some .ok, some .ok, some .errFinalized] := by
  rw [← (facade_refines obeys_enclosingCalls).1]
  decide +kernel

end UniMPI
