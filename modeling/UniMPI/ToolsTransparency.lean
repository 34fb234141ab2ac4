import UniMPI.Dispatch
import UniMPI.Identity

/-!
# The tools interface is transparent

MPI and the tools interface share one library, one reference count and one loading
flag. `tools_transparent` says that a program using MPI cannot tell: for a fixed set
of installed libraries, take out of any run that does not fault every call of the
tools interface, and what is left is a run that does not fault, in which every call of
the MPI interface returns what it returned and which ends in the same lifecycle state,
with the same thread level and, while active, the same library behind the members.

The runs are compared by a simulation. `Retained` holds of the run with the tools
interface, `Alone` of the one without, and `SameView` relates their states.
-/

namespace UniMPI

open Runs

/-- A call of the tools interface. -/
def Op.isTools : Op → Bool
  | .mpitInitThread | .mpitFinalize => true
  | _ => false

/-- The variables and the libraries of a process, which all its calls find. -/
structure Installation where
  unimpiBackend : Option CString
  unimpiLibrary : Option CString
  dlopen : CString → Option Library
  /-- A handle stands for one library. -/
  faithful : ∀ q q' L L', dlopen q = some L → dlopen q' = some L' → L.handle = L'.handle → L = L'

/-- An environment of the installation, with a backend that answers `0`. -/
def Installation.env (i : Installation) : Env :=
  ⟨i.unimpiBackend, i.unimpiLibrary, i.dlopen, 0, 0, 0, 0, 0⟩

/-- The path of the library that the variables select. -/
def Installation.path (i : Installation) (p : Platform) : CString :=
  detectBackend p i.env

/-- An environment of the installation, whatever its backend answers. -/
structure Env.In (env : Env) (i : Installation) : Prop where
  unimpiBackend : env.unimpiBackend = i.unimpiBackend
  unimpiLibrary : env.unimpiLibrary = i.unimpiLibrary
  dlopen : env.dlopen = i.dlopen

/-- A call that returned, and its return code. -/
abbrev Answer := Call × ReturnCode

/-- The answer a call adds to the earlier ones, latest first. -/
def logAnswers (p : Platform) (s : Sys) (c : Call) (log : List Answer) : List Answer :=
  match codeOf (exec p c.op c.env s.core) with
  | some ret => (c, ret) :: log
  | none => log

/-- A call and its answer. -/
abbrev AnsweredStep (p : Platform) : Sys × List Answer → Call → Sys × List Answer → Prop :=
  Recorded (Step p) (logAnswers p)

/-- The members of kind `native` and the identity are those of the library at `path`. -/
structure Serves (p : Platform) (path : CString) (L : Library) (st : State) : Prop where
  identity : st.gBackendIdentity =
    ⟨identifyBackend p L, backendName (identifyBackend p L), some path⟩
  natives : ∀ slot : Slot, slot.kind = .native → st.tables.unimpi slot = L.bind slot.symbol

/-- What a user of the MPI interface sees of two states is the same. -/
structure SameView (p : Platform) (st st' : State) : Prop where
  state : st'.gState = st.gState
  level : st'.gThreadLevel = st.gThreadLevel
  service : st.gState = .active → ∃ path L, Serves p path L st ∧ Serves p path L st'

/-! ## Loading does not look at the state -/

/-- The name in the identity is not that of a standard ABI library. -/
def NameNeutral (st : State) : Prop :=
  st.gBackendIdentity.backendName.any pathNamesStandardAbi = false

theorem checkPlatformSupport_of_neutral (p : Platform) (b : BackendType) {name : Option CString}
    (h : name.any pathNamesStandardAbi = false) :
    checkPlatformSupport p b name =
      if !backendSupported p b then .errBackendNotSupported else .ok := by
  simp [checkPlatformSupport, h]

theorem fill_isSome (b : BackendType) (L : Library) (t t' : Tables) :
    (fill b L t).isSome = (fill b L t').isSome := by
  cases b with
  | openmpi =>
    simp only [fill, vtableInitOpenmpi]
    split_ifs <;> rfl
  | unknown | mpich | intelmpi | msmpi => rfl

section Loading

variable {p : Platform} {i : Installation} {env env' : Env} {path : CString} {st st' : State}

/-- Loading ends alike from any two states, if the same library is found. -/
theorem loadOutcome_code_congr (h : NameNeutral st) (h' : NameNeutral st')
    (hload : loaderLoad env path = loaderLoad env' path) :
    (loadOutcome p env path st).code = (loadOutcome p env' path st').code := by
  unfold loadOutcome
  rw [hload]
  cases loaderLoad env' path with
  | error ret => rfl
  | ok L =>
    have hsome := fill_isSome (identifyBackend p L) L (vtableInitStart st.tables)
      (vtableInitStart st'.tables)
    simp only [checkPlatformSupport_of_neutral p _ h, checkPlatformSupport_of_neutral p _ h']
    cases validateCore L with
    | false => rfl
    | true =>
      cases backendSupported p (identifyBackend p L) with
      | false => rfl
      | true =>
        cases hf : fill (identifyBackend p L) L (vtableInitStart st.tables) <;>
          cases hf' : fill (identifyBackend p L) L (vtableInitStart st'.tables) <;>
          simp [hf, hf', LoadOutcome.code] at hsome ⊢

theorem filled_library_congr {L L' : Library} {t t' : Tables}
    (h : loadOutcome p env path st = .filled L t)
    (h' : loadOutcome p env path st' = .filled L' t') :
    L' = L :=
  Except.ok.inj ((loaderLoad_of_filled h').1.symm.trans (loaderLoad_of_filled h).1)

/-- A filled library serves. -/
theorem serves_of_filled {L : Library} {t : Tables} (h : loadOutcome p env path st = .filled L t) :
    Serves p path L ((LoadOutcome.filled L t).apply p path st) :=
  ⟨rfl, fun _ hslot => fill_native (loaderLoad_of_filled h).2.2.2 hslot⟩

theorem Serves.congr {L : Library} (h : Serves p path L st)
    (hidentity : st'.gBackendIdentity = st.gBackendIdentity)
    (hunimpi : st'.tables.unimpi = st.tables.unimpi) : Serves p path L st' :=
  ⟨hidentity.trans h.identity, fun slot hslot =>
    (congrFun hunimpi slot).trans (h.natives slot hslot)⟩

theorem Env.In.detectBackend (h : env.In i) : detectBackend p env = i.path p := by
  simp only [Installation.path, UniMPI.detectBackend, Installation.env, h.unimpiBackend,
    h.unimpiLibrary]

theorem Env.In.loaderLoad (h : env.In i) : loaderLoad env path = loaderLoad i.env path := by
  simp only [UniMPI.loaderLoad, openPath, Installation.env, h.dlopen]

/-- Every library that is loaded is installed. -/
theorem Env.In.dlopen_of_load (h : env.In i) {L : Library}
    (hload : UniMPI.loaderLoad env path = .ok L) : ∃ q, i.dlopen q = some L :=
  ⟨_, h.dlopen ▸ dlopen_openedPath (openPath_of_loaderLoad hload)⟩

end Loading

/-! ## The run with the tools interface -/

/-- The library that loading at a path gets and fills the tables from. -/
def Loadable (p : Platform) (i : Installation) (path : CString) (L : Library) : Prop :=
  ∃ env st t, env.In i ∧ NameNeutral st ∧ loadOutcome p env path st = .filled L t

/-- Neither member that starts the backend can be called. -/
def Dead (st : State) : Prop :=
  ∀ slot, slot = .init ∨ slot = .initThread → st.tables.unimpi slot = .null ∨
    ∃ lib addr, st.tables.unimpi slot = .native lib addr ∧ ¬st.linker.IsOpen lib

/-- What holds along every run in one installation: before MPI is started, only the library that
the variables select is open, and while one is loaded it is that one, unless the members that start
it have been lost. -/
structure Retained (p : Platform) (i : Installation) (st : State) : Prop where
  neutral : NameNeutral st
  loaded : checkCanInitialize st = .ok → st.gBackendLoaded = true →
    ∃ L, Loadable p i (i.path p) L ∧ (Serves p (i.path p) L st ∨ Dead st)
  opened : checkCanInitialize st = .ok → ∀ h, st.linker.IsOpen h →
    ∃ L, Loadable p i (i.path p) L ∧ L.handle = h

theorem NameNeutral.congr {st st' : State} (h : NameNeutral st)
    (hidentity : st'.gBackendIdentity = st.gBackendIdentity) : NameNeutral st' := by
  unfold NameNeutral at h ⊢
  rwa [hidentity]

/-- Every call keeps the name neutral. -/
theorem NameNeutral.step {p : Platform} {env : Env} {op : Op} {ret : ReturnCode} {st st' : State}
    (h : NameNeutral st) (heff : Effect p env st op ret st') : NameNeutral st' := by
  have hloaded : NameNeutral (Call.loaded p ⟨op, env⟩ st) := by
    cases hloads : Call.loads p ⟨op, env⟩ st with
    | none =>
      rw [Call.loaded_of_none hloads]
      exact h
    | some path =>
      rw [Call.loaded_of_some hloads]
      by_cases ho : (loadOutcome p env path st).code = .ok
      · obtain ⟨L, t, hfilled⟩ := (loadOutcome_code_eq_ok_iff _ _ _ _).1 ho
        rw [hfilled]
        exact pathNamesStandardAbi_backendName _
      · exact h.congr (LoadOutcome.apply_identity_of_failed ho)
  rcases heff.settles.identity with hsame | hcleared
  · exact hloaded.congr hsame
  · unfold NameNeutral
    rw [hcleared]
    rfl

/-- Dead members stay so while the table is left alone and nothing is opened for good. -/
theorem Dead.mono {st st' : State} (h : Dead st) (ht : st'.tables.unimpi = st.tables.unimpi)
    (hk : ∀ lib, st'.linker.IsOpen lib → st.linker.IsOpen lib) : Dead st' := by
  intro slot hslot
  rw [ht]
  refine (h slot hslot).imp_right ?_
  rintro ⟨lib, addr, heq, hclosed⟩
  exact ⟨lib, addr, heq, fun hopen => hclosed (hk lib hopen)⟩

theorem dead_of_null {st : State} (h : st.tables.unimpi = fun _ => .null) : Dead st :=
  fun _ _ => Or.inl (congrFun h _)

theorem Dead.not_startedThrough {st : State} (h : Dead st) : ¬StartedThrough st := by
  rintro ⟨slot, hslot, hne, hcall⟩
  rcases h slot hslot with hnull | ⟨lib, addr, heq, hclosed⟩
  · exact hne hnull
  · simp [callSlot, Tables.target, heq, hclosed] at hcall

section Retained

variable {p : Platform} {i : Installation} {env : Env} {path : CString} {st st' : State}
  {L : Library} {t : Tables}

/-- A library that was filled once is filled whenever its path is loaded. -/
theorem Loadable.code (h : Loadable p i path L) (henv : env.In i) (hname : NameNeutral st) :
    (loadOutcome p env path st).code = .ok := by
  obtain ⟨env', st', t, henv', hname', ho⟩ := h
  have hload : loaderLoad env path = loaderLoad env' path :=
    henv.loaderLoad.trans henv'.loaderLoad.symm
  rw [loadOutcome_code_congr hname hname' hload, ho]
  rfl

/-- No other installed library with its handle fails to fill. -/
theorem Loadable.handle_ne (h : Loadable p i path L) {path' : CString} {L' : Library}
    (henv : env.In i) (ho : loadOutcome p env path' st = .unfilled L') :
    L'.handle ≠ L.handle := by
  intro heq
  obtain ⟨env', st', t, henv', hname', hfilled⟩ := h
  obtain ⟨hload, -, -, hfill⟩ := loaderLoad_of_filled hfilled
  obtain ⟨q, hq⟩ := henv'.dlopen_of_load hload
  obtain ⟨q', hq'⟩ := henv.dlopen_of_load (loaderLoad_of_unfilled ho)
  obtain rfl : L' = L := i.faithful q' q L' L hq' hq heq
  have hsome := fill_isSome (identifyBackend p L') L' (vtableInitStart st.tables)
    (vtableInitStart st'.tables)
  rw [hfill, (fill_of_unfilled ho).2] at hsome
  cases hsome

/-- A failed load leaves the members as they were, or dead. -/
theorem serves_or_dead_of_failed (h : Retained p i st) (henv : env.In i)
    (hcheck : checkCanInitialize st = .ok) (hl : st.gBackendLoaded = true)
    (ho : (loadOutcome p env path st).code ≠ .ok) :
    ∃ L, Loadable p i (i.path p) L ∧
      (Serves p (i.path p) L ((loadOutcome p env path st).apply p path st) ∨
        Dead ((loadOutcome p env path st).apply p path st)) := by
  obtain ⟨L, hL, hview⟩ := h.loaded hcheck hl
  refine ⟨L, hL, ?_⟩
  have hopen : ∀ lib, ((loadOutcome p env path st).apply p path st).linker.IsOpen lib →
      st.linker.IsOpen lib := fun lib => (LoadOutcome.isOpen_of_failed ho).1
  have hidentity := @LoadOutcome.apply_identity_of_failed p path st _ ho
  have hkept : ((loadOutcome p env path st).apply p path st).tables.unimpi = st.tables.unimpi →
      Serves p (i.path p) L ((loadOutcome p env path st).apply p path st) ∨
        Dead ((loadOutcome p env path st).apply p path st) := fun ht =>
    hview.imp (fun hserves => hserves.congr hidentity ht) fun hdead => hdead.mono ht hopen
  cases hout : loadOutcome p env path st with
  | notLoaded ret | missingCore L' | refused L' ret =>
    rw [hout] at hkept
    exact hkept rfl
  | unfilled L' =>
    -- The library that failed to fill is closed again, and no open one has its handle.
    refine Or.inr fun slot hslot => ?_
    have hbind : ((LoadOutcome.unfilled L').apply p path st).tables.unimpi slot =
        L'.bind slot.symbol := by
      rcases hslot with rfl | rfl <;> rfl
    rw [hbind]
    cases he : L'.exports slot.symbol with
    | false => exact Or.inl ((L'.bind_eq_null_iff _).2 he)
    | true =>
      refine Or.inr ⟨_, _, L'.bind_of_exports he, fun hstill => ?_⟩
      rw [hout] at hopen
      obtain ⟨L₀, hL₀, hhandle⟩ := h.opened hcheck _ (hopen _ hstill)
      exact hL₀.handle_ne henv hout hhandle.symm
  | filled L' t =>
    rw [hout] at ho
    exact absurd rfl ho

/-- No initialisation is possible once one has succeeded. -/
theorem not_check_of_state (h : st.gState = .active ∨ st.gState = .finalized ∨
    st.gState = .finalizeFailed) : checkCanInitialize st ≠ .ok := by
  unfold checkCanInitialize
  rcases h with hs | hs | hs <;> rw [hs] <;> decide

theorem finalizedState_state (env : Env) (st : State) :
    (finalizedState env st).gState = .active ∨ (finalizedState env st).gState = .finalized ∨
      (finalizedState env st).gState = .finalizeFailed := by
  simp only [finalizedState]
  split_ifs <;> simp

theorem check_congr (h : st'.gState = st.gState) :
    checkCanInitialize st' = checkCanInitialize st := by
  unfold checkCanInitialize
  rw [h]

/-- What is retained says nothing about a state after a successful initialisation. -/
theorem Retained.of_not_check (hname : NameNeutral st) (h : checkCanInitialize st ≠ .ok) :
    Retained p i st :=
  ⟨hname, fun hcheck => absurd hcheck h, fun hcheck => absurd hcheck h⟩

/-- A library that has just been loaded for the tools interface serves. -/
theorem Retained.fresh (h : Retained p i st) (henv : env.In i)
    (ho : loadOutcome p env (i.path p) st = .filled L t)
    (hname : NameNeutral st') (hstate : st'.gState = st.gState)
    (hidentity : st'.gBackendIdentity =
      ((LoadOutcome.filled L t).apply p (i.path p) st).gBackendIdentity)
    (ht : st'.tables = t) (hk : st'.linker = st.linker.openLib L.handle) : Retained p i st' := by
  have hloadable : Loadable p i (i.path p) L := ⟨env, st, t, henv, h.neutral, ho⟩
  refine ⟨hname, fun _ _ => ⟨L, hloadable, Or.inl ?_⟩, fun hcheck lib hopen => ?_⟩
  · exact (serves_of_filled ho).congr hidentity (congrArg Tables.unimpi ht)
  · by_cases hlib : lib = L.handle
    · exact ⟨L, hloadable, hlib.symm⟩
    · rw [check_congr hstate] at hcheck
      refine h.opened hcheck lib ?_
      rw [hk] at hopen
      simpa [Linker.IsOpen, Linker.openLib, List.count_cons, Ne.symm hlib] using hopen

theorem Retained.step {s s' : Sys} {c : Call} (hinv : Inv s) (henv : c.env.In i)
    (hstep : Step p s c s') (h : Retained p i s.core) : Retained p i s'.core := by
  obtain ⟨op, env⟩ := c
  obtain ⟨core', n⟩ := s'
  obtain ⟨-, ⟨ret, hexec⟩, -⟩ := hstep.cases
  dsimp only at hexec henv ⊢
  have heff := exec_effect hexec
  have hname := h.neutral.step heff
  cases heff with
  | refused hret hwhy => exact h
  | loadFailed hcheck hpath hl ho =>
    refine ⟨hname, fun _ hl' => ?_, fun _ lib hopen => ?_⟩
    · simp only [LoadOutcome.apply_gBackendLoaded] at hl'
      obtain ⟨L, hL, hview⟩ := serves_or_dead_of_failed h henv hcheck hl' ho
      exact ⟨L, hL, hview.imp (fun hs => hs.congr rfl rfl) fun hd => hd.mono rfl fun _ => id⟩
    · exact h.opened hcheck lib ((LoadOutcome.isOpen_of_failed ho).1 hopen)
  | initFailed hcheck hpath hready hret =>
    rcases initFailedState_cases hinv hready with ⟨-, hl, heq⟩ | ⟨L, t, ho, -, heq⟩
    · rw [heq] at hname ⊢
      obtain ⟨L, hL, -⟩ := h.loaded hcheck hl
      exact ⟨hname, fun _ _ => ⟨L, hL, Or.inr (dead_of_null rfl)⟩, fun _ => h.opened hcheck⟩
    · rw [heq] at hname ⊢
      refine ⟨hname, fun _ hl => ?_, fun _ lib hopen => ?_⟩
      · obtain ⟨L, hL, -⟩ := h.loaded hcheck hl
        exact ⟨L, hL, Or.inr (dead_of_null rfl)⟩
      · exact h.opened hcheck lib ((Linker.isOpen_openLib_closeLib _ _ _).1 hopen)
  | started level hcheck hpath hready hret hlevel =>
    exact .of_not_check hname (not_check_of_state (Or.inl rfl))
  | finalized hs hcall => exact .of_not_check hname (not_check_of_state (finalizedState_state _ _))
  | mpitLoadFailed hl ho =>
    refine ⟨hname, fun _ hl' => ?_, fun hcheck lib hopen => ?_⟩
    · rw [LoadOutcome.apply_gBackendLoaded, hl] at hl'
      cases hl'
    · rw [check_congr (LoadOutcome.apply_gState_eq ..)] at hcheck
      exact h.opened hcheck lib ((LoadOutcome.isOpen_of_failed ho).1 hopen)
  | mpitStarted hready hcall =>
    rw [henv.detectBackend] at hready
    cases hready with
    | already hl =>
      refine ⟨hname, fun hcheck _ => ?_, h.opened⟩
      obtain ⟨L, hL, hview⟩ := h.loaded hcheck hl
      exact ⟨L, hL, hview.imp (fun hs => hs.congr rfl rfl) fun hd => hd.mono rfl fun _ => id⟩
    | fresh hl ho => exact h.fresh henv ho hname rfl rfl rfl rfl
  | mpitFinalized hcall =>
    by_cases hheld : 1 < s.core.gRefcount ∨ s.core.gHandle = none
    · rw [releaseRef_of_held (by exact hheld)] at hname ⊢
      refine ⟨hname, fun hcheck hl => ?_, h.opened⟩
      obtain ⟨L, hL, hview⟩ := h.loaded hcheck hl
      exact ⟨L, hL, hview.imp (fun hs => hs.congr rfl rfl) fun hd => hd.mono rfl fun _ => id⟩
    · obtain ⟨hr, hsome⟩ := not_or.1 hheld
      obtain ⟨L, hL⟩ := Option.ne_none_iff_exists'.1 hsome
      rw [@releaseRef_of_last _ L (by simp only; omega) (by exact hL)] at hname ⊢
      refine ⟨hname, nofun, fun hcheck lib hopen => h.opened hcheck lib ?_⟩
      simp only [Linker.IsOpen, Linker.closeLib, List.count_cons] at hopen ⊢
      omega

end Retained

/-! ## The run without it -/

/-- What holds along every run without the tools interface: a library is loaded only once MPI has
been started. -/
structure Alone (st : State) : Prop where
  neutral : NameNeutral st
  unloaded : checkCanInitialize st = .ok → st.gBackendLoaded = false
  usable : UsableWhileLoaded st

section Alone

variable {p : Platform} {s s' : Sys} {c : Call}

theorem Alone.keepsDispatch (h : Alone s.core) : KeepsDispatch p s c :=
  fun hl hcheck => absurd hl (ne_true_of_eq_false (h.unloaded hcheck))

theorem Alone.step (hinv : Inv s) (htools : c.op.isTools = false) (hstep : Step p s c s')
    (h : Alone s.core) : Alone s'.core := by
  have husable := h.usable.step h.keepsDispatch hstep hinv
  obtain ⟨op, env⟩ := c
  obtain ⟨core', n⟩ := s'
  obtain ⟨-, ⟨ret, hexec⟩, -⟩ := hstep.cases
  dsimp only at hexec htools husable ⊢
  have heff := exec_effect hexec
  refine ⟨h.neutral.step heff, fun hcheck' => ?_, husable⟩
  cases heff with
  | refused hret hwhy => exact h.unloaded hcheck'
  | loadFailed hcheck hpath hl ho =>
    rw [LoadOutcome.apply_gBackendLoaded]
    exact h.unloaded hcheck
  | initFailed hcheck hpath hready hret =>
    rcases initFailedState_cases hinv hready with ⟨-, hl, -⟩ | ⟨L, t, ho, -, heq⟩
    · exact absurd hl (ne_true_of_eq_false (h.unloaded hcheck))
    · rw [heq]
      exact h.unloaded hcheck
  | started level hcheck hpath hready hret hlevel =>
    exact absurd hcheck' (not_check_of_state (Or.inl rfl))
  | finalized hs hcall => exact absurd hcheck' (not_check_of_state (finalizedState_state _ _))
  | mpitLoadFailed | mpitStarted | mpitFinalized => cases htools

/-- A call of the MPI interface does not fault. -/
theorem Alone.exec_ok (h : Alone s.core) (hinv : Inv s) {op : Op} (env : Env)
    (htools : op.isTools = false) : ∃ ret st', exec p op env s.core = .ok (ret, st') := by
  have hactive : s.core.gState = .active → Usable s.core := fun hs =>
    h.usable (hinv.loaded_of_active hs) (Or.inr (Or.inr hs))
  have hok : faultOf (exec p op env s.core) = none := by
    cases op with
    | init => exact init_faultOf hinv.balanced h.usable.of_check
    | initThread required provided => exact initThread_faultOf hinv.balanced h.usable.of_check
    | initWith name => exact initWith_faultOf hinv.balanced
    | finalize => exact finalize_faultOf hactive
    | mpitInitThread | mpitFinalize => cases htools
  obtain ⟨⟨ret, st'⟩, hexec⟩ := exists_ok_of_faultOf hok
  exact ⟨ret, st', hexec⟩

end Alone

/-! ## The simulation -/

section Simulation

variable {p : Platform} {i : Installation} {env : Env} {op : Op} {ret : ReturnCode}
  {st st' : State}

/-- A call is refused for its lifecycle state and its arguments alone. -/
theorem exec_congr_of_refused {e : State} (hstate : e.gState = st.gState)
    (hwhy : op = .finalize ∧ st.gState ≠ .active ∨
      op.initializes ∧ (op.path p env = none ∨ checkCanInitialize st ≠ .ok)) :
    ∃ ret, exec p op env st = .ok (ret, st) ∧ exec p op env e = .ok (ret, e) := by
  have hcheck := check_congr hstate
  rcases hwhy with ⟨rfl, hs⟩ | ⟨hinit, hwhy⟩
  · simp only [exec, finalize, hstate]
    cases hg : st.gState with
    | active => exact absurd hg hs
    | _ => exact ⟨_, rfl, rfl⟩
  · cases op with
    | init =>
      have hrefused : checkCanInitialize st ≠ .ok := hwhy.resolve_left (Option.some_ne_none _)
      refine ⟨checkCanInitialize st, ?_, ?_⟩
      · simp [exec, init, hrefused]
      · simp [exec, init, hcheck, hrefused]
    | initThread required provided =>
      simp only [exec, initThread, hcheck]
      by_cases hreq : required ≠ 0 ∧ required ≠ 1 ∧ required ≠ 2 ∧ required ≠ 3
      · exact ⟨_, if_pos hreq, if_pos hreq⟩
      · cases hprov : provided with
        | false => exact ⟨.errInvalidArgument, by simp, by simp⟩
        | true =>
          have hrefused : checkCanInitialize st ≠ .ok := by
            refine hwhy.resolve_left ?_
            simp only [Op.path, hprov, and_true]
            rw [if_pos (by omega)]
            exact Option.some_ne_none _
          exact ⟨checkCanInitialize st, by simp [hreq, hrefused], by simp [hreq, hrefused]⟩
    | initWith name =>
      cases name with
      | none => exact ⟨_, rfl, rfl⟩
      | some name =>
        have hrefused : checkCanInitialize st ≠ .ok := hwhy.resolve_left (Option.some_ne_none _)
        refine ⟨checkCanInitialize st, ?_, ?_⟩
        · simp [exec, initWith, hrefused]
        · simp [exec, initWith, hcheck, hrefused]
    | finalize | mpitInitThread | mpitFinalize => cases hinit

theorem Op.path_of_tools (op : Op) (h : op.isTools = true) : op.path p env = none := by
  cases op with
  | mpitInitThread | mpitFinalize => rfl
  | init | initThread _ _ | initWith _ | finalize => cases h

/-- A call that reuses a library asks for the one that the variables select. -/
theorem Op.path_of_reuses (op : Op) {path : CString} (hr : op.reuses = true)
    (hpath : op.path p env = some path) : path = UniMPI.detectBackend p env := by
  cases op with
  | init => exact (Option.some.inj hpath).symm
  | initThread required provided =>
    simp only [Op.path] at hpath
    split_ifs at hpath
    exact (Option.some.inj hpath).symm
  | initWith name => cases hr
  | finalize | mpitInitThread | mpitFinalize => cases hpath

/-- The thread level that a threaded initialisation records. -/
theorem exec_level {required : Int} {provided : Bool}
    (h : exec p (.initThread required provided) env st = .ok (.ok, st')) :
    st'.gThreadLevel = if st'.tables.unimpi .initThread ≠ .null then env.provided else 0 := by
  simp only [exec, initThread] at h
  split_ifs at h with _ _ hcheck
  · cases (Prod.mk.inj (Except.ok.inj h)).1
  · cases (Prod.mk.inj (Except.ok.inj h)).1
  · exact absurd (Prod.mk.inj (Except.ok.inj h)).1 hcheck
  · unfold initializeBackend at h
    dsimp only at h
    split_ifs at h with hret
    · exact absurd (Prod.mk.inj (Except.ok.inj h)).1 hret
    · split at h
      · cases h
      · unfold finishInit at h
        split_ifs at h with hfailed
        · cases (Prod.mk.inj (Except.ok.inj h)).1
        · obtain ⟨-, rfl⟩ := Prod.mk.inj (Except.ok.inj h)
          rfl

@[simp] theorem LoadOutcome.apply_gThreadLevel (p : Platform) (path : CString) (st : State)
    (o : LoadOutcome) : (o.apply p path st).gThreadLevel = st.gThreadLevel := by
  cases o <;> rfl

@[simp] theorem releaseRef_gThreadLevel (st : State) :
    (releaseRef st).gThreadLevel = st.gThreadLevel := by
  simp only [releaseRef, unloadHandle]
  split_ifs <;> rfl

@[simp] theorem releaseRef_gBackendIdentity (st : State) :
    (releaseRef st).gBackendIdentity = st.gBackendIdentity := by
  simp only [releaseRef, unloadHandle]
  split_ifs <;> rfl

/-- What keeps the lifecycle state and the level and, while active, the identity and the members,
keeps the view. -/
theorem SameView.of_kept {e : State} (h : SameView p st e) (hstate : st'.gState = st.gState)
    (hlevel : st'.gThreadLevel = st.gThreadLevel)
    (hsame : st.gState = .active → st'.gBackendIdentity = st.gBackendIdentity ∧
      st'.tables.unimpi = st.tables.unimpi) : SameView p st' e := by
  refine ⟨h.state.trans hstate.symm, h.level.trans hlevel.symm, fun hactive => ?_⟩
  rw [hstate] at hactive
  obtain ⟨hidentity, ht⟩ := hsame hactive
  obtain ⟨path, L, hs, he⟩ := h.service hactive
  exact ⟨path, L, hs.congr hidentity ht, he⟩

/-- The tools interface does not change the view. -/
theorem SameView.tools {s : Sys} {e : State} (hinv : Inv s) (htools : op.isTools = true)
    (heff : Effect p env s.core op ret st') (h : SameView p s.core e) : SameView p st' e := by
  cases heff with
  | refused hret hwhy => exact h
  | loadFailed hcheck hpath | initFailed hcheck hpath | started level hcheck hpath =>
    rw [op.path_of_tools htools] at hpath
    cases hpath
  | finalized => cases htools
  | mpitLoadFailed hl ho =>
    exact h.of_kept (LoadOutcome.apply_gState_eq ..) (LoadOutcome.apply_gThreadLevel ..)
      fun hactive => absurd hactive (hinv.not_active_of_unloaded hl)
  | mpitStarted hready hcall =>
    cases hready with
    | already hl => exact h.of_kept rfl rfl fun _ => ⟨rfl, rfl⟩
    | fresh hl ho =>
      exact h.of_kept rfl rfl fun hactive => absurd hactive (hinv.not_active_of_unloaded hl)
  | mpitFinalized hcall =>
    exact h.of_kept (releaseRef_gState_eq _) (releaseRef_gThreadLevel _)
      fun _ => ⟨releaseRef_gBackendIdentity _, by rw [releaseRef_tables]⟩

/-- Where the run with the tools interface has a library ready, the other one loads it. -/
theorem loadOutcome_code_of_ready {s e : State} {path : CString} (hs : Retained p i s)
    (he : Alone e) (henv : env.In i) (hcheck : checkCanInitialize s = .ok)
    (hpath : op.path p env = some path) (hready : Ready p env path s op.reuses st') :
    (loadOutcome p env path e).code = .ok := by
  have hfilled : ∀ L t, loadOutcome p env path s = .filled L t →
      (loadOutcome p env path e).code = .ok := by
    intro L t ho
    rw [loadOutcome_code_congr he.neutral hs.neutral rfl, ho]
    rfl
  generalize hr : op.reuses = r at hready
  cases hready with
  | already hl =>
    obtain ⟨L, hL, -⟩ := hs.loaded hcheck hl
    rw [op.path_of_reuses hr hpath, henv.detectBackend] at *
    exact hL.code henv he.neutral
  | fresh hl ho => exact hfilled _ _ ho
  | direct ho => exact hfilled _ _ ho

/-- How an initialisation ends in the run without the tools interface. -/
inductive EndsAlone (p : Platform) (env : Env) (path : CString) (e : State) (threaded : Bool) :
    ReturnCode → State → Prop
  | failed {e' : State} (ho : (loadOutcome p env path e).code ≠ .ok)
      (hstate : e'.gState = .initFailed) (hlevel : e'.gThreadLevel = e.gThreadLevel) :
      EndsAlone p env path e threaded (loadOutcome p env path e).code e'
  | undone {e' : State} (ho : (loadOutcome p env path e).code = .ok) (hret : env.mpiInit ≠ 0)
      (hstate : e'.gState = .initFailed) (hlevel : e'.gThreadLevel = e.gThreadLevel) :
      EndsAlone p env path e threaded .errBackendLoad e'
  | started {e' : State} {L : Library} {t : Tables} (ho : loadOutcome p env path e = .filled L t)
      (hret : env.mpiInit = 0) (hstate : e'.gState = .active)
      (hlevel : threaded = false → e'.gThreadLevel = e.gThreadLevel)
      (hserves : Serves p path L e') : EndsAlone p env path e threaded .ok e'

theorem Ready.filled_of_alone {e e' : State} {path : CString} {r : Bool} (he : Alone e)
    (hcheck : checkCanInitialize e = .ok) (h : Ready p env path e r e') :
    ∃ L t, loadOutcome p env path e = .filled L t ∧ Serves p path L e' := by
  cases h with
  | already hl => exact absurd hl (ne_true_of_eq_false (he.unloaded hcheck))
  | fresh hl ho => exact ⟨_, _, ho, (serves_of_filled ho).congr rfl rfl⟩
  | direct ho => exact ⟨_, _, ho, serves_of_filled ho⟩

theorem Ready.gThreadLevel {path : CString} {r : Bool} (h : Ready p env path st r st') :
    st'.gThreadLevel = st.gThreadLevel := by
  cases h <;> rfl

theorem initFailedState_gThreadLevel (r : Bool) (st : State) :
    (initFailedState r st).gThreadLevel = st.gThreadLevel := by
  unfold initFailedState
  split_ifs
  · exact releaseRef_gThreadLevel _
  · rfl

theorem Effect.endsAlone {e e' : State} {path : CString} (he : Alone e)
    (hcheck : checkCanInitialize e = .ok) (hpath : op.path p env = some path)
    (h : Effect p env e op ret e') : EndsAlone p env path e op.threaded ret e' := by
  cases h with
  | refused hret hwhy => exact absurd hwhy (not_refused hcheck hpath)
  | loadFailed hcheck' hpath' hl ho =>
    cases hpath.symm.trans hpath'
    exact .failed ho rfl (LoadOutcome.apply_gThreadLevel ..)
  | initFailed hcheck' hpath' hready hret =>
    cases hpath.symm.trans hpath'
    obtain ⟨L, t, ho, -⟩ := hready.filled_of_alone he hcheck
    refine .undone (by rw [ho]; rfl) hret rfl ?_
    rw [initFailedState_gThreadLevel, hready.gThreadLevel]
  | started level hcheck' hpath' hready hret hlevel =>
    cases hpath.symm.trans hpath'
    obtain ⟨L, t, ho, hserves⟩ := hready.filled_of_alone he hcheck
    exact .started ho hret rfl (fun hop => (hlevel hop).trans hready.gThreadLevel)
      (hserves.congr rfl rfl)
  | finalized | mpitLoadFailed | mpitStarted | mpitFinalized => cases hpath

/-- A start serves the same library in the two runs. -/
theorem serves_of_started {s e s' core' : State} {path : CString} {r : Bool} {L : Library}
    {t : Tables} (hs : Retained p i s) (henv : env.In i) (hcheck : checkCanInitialize s = .ok)
    (hr : op.reuses = r) (hpath : op.path p env = some path) (hready : Ready p env path s r s')
    (hstarted : StartedThrough core') (ht : core'.tables = s'.tables)
    (hk : core'.linker = s'.linker) (ho : loadOutcome p env path e = .filled L t) :
    Serves p path L s' := by
  cases hready with
  | already hl =>
    obtain ⟨L', hL', hview⟩ := hs.loaded hcheck hl
    obtain ⟨env', st', t', henv', -, hfilled⟩ := hL'
    rw [op.path_of_reuses hr hpath, henv.detectBackend] at ho ⊢
    have hload := (loaderLoad_of_filled ho).1
    rw [henv.loaderLoad, ← henv'.loaderLoad, (loaderLoad_of_filled hfilled).1] at hload
    obtain rfl : L' = L := Except.ok.inj hload
    refine hview.resolve_right fun hdead => ?_
    have hlost := hdead.mono (congrArg Tables.unimpi ht) (by rw [hk]; exact fun _ => id)
    exact hlost.not_startedThrough hstarted
  | fresh hl hfilled =>
    rw [filled_library_congr hfilled ho]
    exact (serves_of_filled hfilled).congr rfl rfl
  | direct hfilled =>
    rw [filled_library_congr hfilled ho]
    exact serves_of_filled hfilled

/-- The level recorded by a start. -/
theorem level_of_started {s core' : State}
    (hexec : exec p op env s = .ok (.ok, core')) (hop : op.threaded = true) :
    core'.gThreadLevel =
      if core'.tables.unimpi .initThread ≠ .null then env.provided else 0 := by
  cases op with
  | initThread required provided => exact exec_level hexec
  | init | initWith _ | finalize | mpitInitThread | mpitFinalize => cases hop

/-- A call of the MPI interface does the same in the two runs, as far as the view goes. -/
theorem SameView.step {s e : Sys} {ret' : ReturnCode} {e' : State}
    (hs : Retained p i s.core) (he : Alone e.core) (henv : env.In i)
    (htools : op.isTools = false) (h : SameView p s.core e.core)
    (hexec : exec p op env s.core = .ok (ret, st'))
    (hexec' : exec p op env e.core = .ok (ret', e')) : ret' = ret ∧ SameView p st' e' := by
  have hchecks := check_congr h.state
  have heff' := exec_effect hexec'
  cases exec_effect hexec with
  | refused hret hwhy =>
    obtain ⟨ret₀, hexec₀, hexec₀'⟩ := exec_congr_of_refused h.state hwhy
    obtain ⟨rfl, -⟩ := Prod.mk.inj (Except.ok.inj (hexec.symm.trans hexec₀))
    obtain ⟨rfl, rfl⟩ := Prod.mk.inj (Except.ok.inj (hexec'.symm.trans hexec₀'))
    exact ⟨rfl, h⟩
  | @loadFailed _ path hcheck hpath hl ho =>
    have hcode : (loadOutcome p env path e.core).code = (loadOutcome p env path s.core).code :=
      loadOutcome_code_congr he.neutral hs.neutral rfl
    rw [← hcode] at ho ⊢
    cases heff'.endsAlone he (hchecks.trans hcheck) hpath with
    | failed _ hstate hlevel =>
      refine ⟨rfl, hstate, ?_, nofun⟩
      exact hlevel.trans (h.level.trans (LoadOutcome.apply_gThreadLevel ..).symm)
    | undone hcode' => exact absurd hcode' ho
    | started hfilled =>
      rw [hfilled] at ho
      exact absurd rfl ho
  | @initFailed _ path st₁ hcheck hpath hready hret =>
    have hok := loadOutcome_code_of_ready hs he henv hcheck hpath hready
    cases heff'.endsAlone he (hchecks.trans hcheck) hpath with
    | failed ho => exact absurd hok ho
    | undone _ _ hstate hlevel =>
      refine ⟨rfl, hstate, ?_, nofun⟩
      exact hlevel.trans (h.level.trans
        ((initFailedState_gThreadLevel _ _).trans hready.gThreadLevel).symm)
    | started _ hret' => exact absurd hret' hret
  | @started _ path st₁ level hcheck hpath hready hret hlevel =>
    have hok := loadOutcome_code_of_ready hs he henv hcheck hpath hready
    have hstarted := exec_started (Op.initializes_of_path hpath) hexec
    cases heff'.endsAlone he (hchecks.trans hcheck) hpath with
    | failed ho => exact absurd hok ho
    | undone _ hret' => exact absurd hret hret'
    | @started _ L t ho _ hstate hlevel' hserves' =>
      have hserves : Serves p path L st₁ :=
        serves_of_started hs henv hcheck rfl hpath hready hstarted rfl rfl ho
      refine ⟨rfl, hstate, ?_, fun _ => ⟨path, L, hserves.congr rfl rfl, hserves'⟩⟩
      cases hop : op.threaded with
      | false =>
        exact (hlevel' hop).trans (h.level.trans ((hlevel hop).trans hready.gThreadLevel).symm)
      | true =>
        have hsame : e'.tables.unimpi .initThread = st₁.tables.unimpi .initThread :=
          (hserves'.natives _ rfl).trans (hserves.natives _ rfl).symm
        rw [level_of_started hexec' hop, level_of_started hexec hop, hsame]
  | finalized hactive hcall =>
    cases heff' with
    | refused hret hwhy =>
      rcases hwhy with ⟨-, hnot⟩ | ⟨hinit, -⟩
      · exact absurd (h.state.trans hactive) hnot
      · cases hinit
    | loadFailed _ hpath | initFailed _ hpath | started _ _ hpath => cases hpath
    | finalized =>
      exact ⟨rfl, rfl, rfl, fun hs' => absurd hs' (finalizedState_not_active _ _)⟩
  | mpitLoadFailed | mpitStarted | mpitFinalized => cases htools

end Simulation

/-! ## Results -/

section Runs

variable {p : Platform} {i : Installation} {t : Sys × List Answer}

theorem Retained.initial : Retained p i State.initial :=
  ⟨rfl, nofun, fun _ _ hopen => absurd hopen (Nat.lt_irrefl 0)⟩

theorem Alone.initial : Alone State.initial :=
  ⟨rfl, fun _ => rfl, nofun⟩

theorem SameView.initial : SameView p State.initial State.initial :=
  ⟨rfl, rfl, nofun⟩

theorem Retained.of_reaches
    (h : Reaches (AnsweredStep p) (fun _ c => c.env.In i) (Sys.initial, []) t) :
    Inv t.1 ∧ Retained p i t.1.core := by
  refine h.invariant (P := fun t => Inv t.1 ∧ Retained p i t.1.core) ?_ ⟨.initial, .initial⟩
  rintro t c t' henv ⟨hstep, -⟩ ⟨hinv, hretained⟩
  exact ⟨hinv.step hstep, hretained.step hinv henv hstep⟩

theorem Alone.of_reaches
    (h : Reaches (AnsweredStep p) (fun _ c => c.env.In i ∧ c.op.isTools = false)
      (Sys.initial, []) t) : Inv t.1 ∧ Alone t.1.core := by
  refine h.invariant (P := fun t => Inv t.1 ∧ Alone t.1.core) ?_ ⟨.initial, .initial⟩
  rintro t c t' ⟨-, htools⟩ ⟨hstep, -⟩ ⟨hinv, halone⟩
  exact ⟨hinv.step hstep, halone.step hinv htools hstep⟩

/-- The answers of the MPI interface. -/
def mpiAnswers (log : List Answer) : List Answer :=
  log.filter fun a => !a.1.op.isTools

theorem mpiAnswers_cons_tools {c : Call} (ret : ReturnCode) (log : List Answer)
    (h : c.op.isTools = true) : mpiAnswers ((c, ret) :: log) = mpiAnswers log := by
  simp [mpiAnswers, h]

theorem mpiAnswers_cons_mpi {c : Call} (ret : ReturnCode) (log : List Answer)
    (h : c.op.isTools = false) :
    mpiAnswers ((c, ret) :: log) = (c, ret) :: mpiAnswers log := by
  simp [mpiAnswers, h]

theorem logAnswers_of_exec {s : Sys} {c : Call} {ret : ReturnCode} {st' : State}
    (log : List Answer) (h : exec p c.op c.env s.core = .ok (ret, st')) :
    logAnswers p s c log = (c, ret) :: log := by
  rw [logAnswers, h]
  rfl

/-- The second run has the answers of the MPI interface in the first one and the same view. -/
structure Erases (p : Platform) (t u : Sys × List Answer) : Prop where
  answers : u.2 = mpiAnswers t.2
  view : SameView p t.1.core u.1.core

theorem Erases.step {t' u : Sys × List Answer} {c : Call}
    (ht : Reaches (AnsweredStep p) (fun _ c => c.env.In i) (Sys.initial, []) t)
    (hu : Reaches (AnsweredStep p) (fun _ c => c.env.In i ∧ c.op.isTools = false)
      (Sys.initial, []) u)
    (henv : c.env.In i) (hstep : AnsweredStep p t c t') (h : Erases p t u) :
    ∃ u', Reaches (AnsweredStep p) (fun _ c => c.env.In i ∧ c.op.isTools = false) u u' ∧
      Erases p t' u' := by
  obtain ⟨s', log'⟩ := t'
  obtain ⟨hone, hlog⟩ := hstep
  obtain ⟨hinv, hretained⟩ := Retained.of_reaches ht
  obtain ⟨hinv', halone⟩ := Alone.of_reaches hu
  obtain ⟨-, ⟨ret, hexec⟩, -⟩ := hone.cases
  dsimp only at hlog hexec
  rw [logAnswers_of_exec t.2 hexec] at hlog
  subst hlog
  cases htools : c.op.isTools with
  | true =>
    -- The other run stands still.
    refine ⟨u, .refl, ?_, h.view.tools hinv htools (exec_effect hexec)⟩
    exact h.answers.trans (mpiAnswers_cons_tools ret t.2 htools).symm
  | false =>
    obtain ⟨ret', e', hexec'⟩ := halone.exec_ok hinv' c.env htools
    obtain ⟨rfl, hview⟩ := h.view.step hretained halone henv htools hexec hexec'
    have hne : c.op ≠ .mpitFinalize := by
      intro hop
      rw [hop] at htools
      cases htools
    have hanswers : logAnswers p u.1 c u.2 = mpiAnswers ((c, ret') :: t.2) := by
      rw [logAnswers_of_exec u.2 hexec', mpiAnswers_cons_mpi ret' t.2 htools, h.answers]
    exact ⟨(⟨e', _⟩, _), .tail .refl ⟨henv, htools⟩ ⟨.of_exec hne hexec', rfl⟩, hanswers, hview⟩

/-- Without the calls of the tools interface, a run in one installation is a run in which the calls
of the MPI interface are answered as before, and which ends with the same view of MPI. -/
theorem tools_transparent
    (h : Reaches (AnsweredStep p) (fun _ c => c.env.In i) (Sys.initial, []) t) :
    ∃ e : Sys, Reaches (AnsweredStep p) (fun _ c => c.env.In i ∧ c.op.isTools = false)
      (Sys.initial, []) (e, mpiAnswers t.2) ∧ SameView p t.1.core e.core := by
  have hinitial : Erases p (Sys.initial, []) (Sys.initial, []) := ⟨rfl, .initial⟩
  obtain ⟨⟨e, log⟩, he, hlog, hview⟩ := h.simulation
    (fun _ _ _ _ ht hu henv hstep herases => herases.step ht hu henv hstep) hinitial
  dsimp only at hlog
  subst hlog
  exact ⟨e, he, hview⟩

end Runs

/-- One library behind every path. -/
def Installation.single (L : Library) : Installation where
  unimpiBackend := none
  unimpiLibrary := none
  dlopen _ := some L
  faithful _ _ _ _ h h' _ := Option.some.inj (h.symm.trans h')

/-- The tools interface is initialised first and finalized last. -/
def enclosedCycle : List Call :=
  [⟨.mpitInitThread, .offering (some mpichLibrary) 0⟩, ⟨.init, .offering (some mpichLibrary) 0⟩,
    ⟨.finalize, .offering (some mpichLibrary) 0⟩,
    ⟨.mpitFinalize, .offering (some mpichLibrary) 0⟩]

/-- MPI within the tools interface ends as it does alone. -/
theorem tools_transparent_enclosed : ∃ t : Sys × List Answer, t.1.core.gState = .finalized ∧
    ∃ e : Sys, Reaches (AnsweredStep .linux)
      (fun _ c => c.env.In (.single mpichLibrary) ∧ c.op.isTools = false)
      (Sys.initial, []) (e, mpiAnswers t.2) ∧ SameView .linux t.1.core e.core := by
  have hrun : ((Sys.initial.afterAll .linux enclosedCycle).map fun s => s.core.gState) =
      some .finalized := by decide +kernel
  obtain ⟨s, hs, hstate⟩ := Option.map_eq_some_iff.1 hrun
  have henv : (Env.offering (some mpichLibrary) 0).In (.single mpichLibrary) := ⟨rfl, rfl, rfl⟩
  have hcalls : ∀ c ∈ enclosedCycle, ∀ t : Sys, c.env.In (.single mpichLibrary) := by
    simp [enclosedCycle, henv]
  have hreach : Reaches (Step .linux) (fun _ c => c.env.In (.single mpichLibrary)) Sys.initial s :=
    reaches_afterAll .refl hcalls hs
  have hrecorded : ∃ log, Reaches (AnsweredStep .linux) (fun t c => c.env.In (.single mpichLibrary))
      (Sys.initial, []) (s, log) := hreach.recorded []
  obtain ⟨log, hlog⟩ := hrecorded
  exact ⟨(s, log), hstate, tools_transparent hlog⟩

end UniMPI
