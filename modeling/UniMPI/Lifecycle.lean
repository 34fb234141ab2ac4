import UniMPI.Core
import UniMPI.Lib.Runs

/-!
# What a call can do

`Effect` lists the ways a call of the facade can end without a fault, with the
state it leaves in terms of the outcome of loading. `exec_effect` shows that
these are all, so that an invariant is checked once per way and not once per
branch of six functions.

`Sys` adds to the state the number of `mpitInitThread` calls that got past
loading and have no `mpitFinalize` yet; the caller may finalize the tools
interface only while there is one. `Inv` is what holds after every run of calls
whatever: the reference count, and what it says about the handle.
-/

namespace UniMPI

open Runs

/-! ## The ways a call ends -/

/-- The library path an initialisation asks for, of the calls that go past their argument
checks. -/
def Op.path (p : Platform) (env : Env) : Op → Option CString
  | .init => some (detectBackend p env)
  | .initThread required provided =>
    if (required = 0 ∨ required = 1 ∨ required = 2 ∨ required = 3) ∧ provided then
      some (detectBackend p env)
    else none
  | .initWith name => name.map libraryFor
  | _ => none

/-- The three calls that initialise the MPI interface. -/
def Op.initializes : Op → Bool
  | .init | .initThread _ _ | .initWith _ => true
  | _ => false

/-- Whether a call reuses a library that is loaded. -/
def Op.reuses : Op → Bool
  | .initWith _ => false
  | _ => true

/-- Whether a call sets the thread level. -/
def Op.threaded : Op → Bool
  | .initThread _ _ => true
  | _ => false

/-- The state when the backend is asked to initialise: a library was loaded before, or has just been
loaded. -/
inductive Ready (p : Platform) (env : Env) (path : CString) (st : State) : Bool → State → Prop
  | already (hl : st.gBackendLoaded = true) : Ready p env path st true st
  | fresh {L : Library} {t : Tables} (hl : st.gBackendLoaded = false)
      (ho : loadOutcome p env path st = .filled L t) :
      Ready p env path st true
        { (LoadOutcome.filled L t).apply p path st with gBackendLoaded := true }
  | direct {L : Library} {t : Tables} (ho : loadOutcome p env path st = .filled L t) :
      Ready p env path st false ((LoadOutcome.filled L t).apply p path st)

/-- The state after the backend's `MPI_Init` has failed. -/
def initFailedState (reuses : Bool) (st : State) : State :=
  { clearBackendIdentity
      (if reuses then releaseRef { cleanup st with gRefcount := st.gRefcount + 1 }
        else unloadHandle (cleanup st)) with
    gState := .initFailed }

/-- The state after the backend's `MPI_Finalize`. -/
def finalizedState (env : Env) (st : State) : State :=
  { clearBackendIdentity (releaseRef (cleanup st)) with
    gThreadLevel := 0
    gState := if env.mpiFinalize = 0 then .finalized else .finalizeFailed }

/-- The ways a call can end without a fault. -/
inductive Effect (p : Platform) (env : Env) (st : State) : Op → ReturnCode → State → Prop
  /-- The call is refused. -/
  | refused {op : Op} {ret : ReturnCode} (hret : ret ≠ .ok)
      (h : op = .finalize ∧ st.gState ≠ .active ∨
        op.initializes ∧ (op.path p env = none ∨ checkCanInitialize st ≠ .ok)) :
      Effect p env st op ret st
  /-- An initialisation does not get a filled library. -/
  | loadFailed {op : Op} {path : CString} (hcheck : checkCanInitialize st = .ok)
      (hpath : op.path p env = some path) (hl : op.reuses → st.gBackendLoaded = false)
      (ho : (loadOutcome p env path st).code ≠ .ok) :
      Effect p env st op (loadOutcome p env path st).code
        { (loadOutcome p env path st).apply p path st with gState := .initFailed }
  /-- The backend's `MPI_Init` fails. -/
  | initFailed {op : Op} {path : CString} {st' : State} (hcheck : checkCanInitialize st = .ok)
      (hpath : op.path p env = some path) (hready : Ready p env path st op.reuses st')
      (hret : env.mpiInit ≠ 0) : Effect p env st op .errBackendLoad (initFailedState op.reuses st')
  /-- The backend's `MPI_Init` succeeds. -/
  | started {op : Op} {path : CString} {st' : State} (level : Int)
      (hcheck : checkCanInitialize st = .ok) (hpath : op.path p env = some path)
      (hready : Ready p env path st op.reuses st') (hret : env.mpiInit = 0)
      (hlevel : op.threaded = false → level = st'.gThreadLevel) :
      Effect p env st op .ok { st' with
        gRefcount := st'.gRefcount + 1, gBackendLoaded := true, gState := .active,
        gThreadLevel := level }
  | finalized (h : st.gState = .active) (hcall : callSlot st .finalize = .ok ()) :
      Effect p env st .finalize (ofBackend env.mpiFinalize) (finalizedState env st)
  /-- The tools interface does not get a filled library. -/
  | mpitLoadFailed (hl : st.gBackendLoaded = false)
      (ho : (loadOutcome p env (detectBackend p env) st).code ≠ .ok) :
      Effect p env st .mpitInitThread (loadOutcome p env (detectBackend p env) st).code
        ((loadOutcome p env (detectBackend p env) st).apply p (detectBackend p env) st)
  | mpitStarted {st' : State} (hready : Ready p env (detectBackend p env) st true st')
      (hcall : callMtSlot st' .tInitThread = .ok ()) :
      Effect p env st .mpitInitThread (ofBackend env.mpitInit) { st' with
        gRefcount := st'.gRefcount + 1, gMpitInited := true }
  | mpitFinalized (hcall : callMtSlot st .tFinalize = .ok ()) :
      Effect p env st .mpitFinalize (ofBackend env.mpitFinalize)
        (releaseRef { st with gMpitInited := false })

/-- No call of the tools interface is refused. -/
theorem Op.ne_tools_of_refused {op : Op} {P Q : Prop}
    (h : op = .finalize ∧ P ∨ op.initializes ∧ Q) :
    op ≠ .mpitInitThread ∧ op ≠ .mpitFinalize := by
  rcases h with ⟨rfl, -⟩ | ⟨hinit, -⟩
  · exact ⟨Op.noConfusion, Op.noConfusion⟩
  · constructor
    · rintro rfl
      cases hinit
    · rintro rfl
      cases hinit

/-! ## There are no others -/

theorem LoadOutcome.apply_gState (p : Platform) (path : CString) (st : State) (g : LifecycleState)
    (o : LoadOutcome) :
    o.apply p path { st with gState := g } = { o.apply p path st with gState := g } := by
  cases o <;> rfl

theorem ensureLoaded_of_ready {p : Platform} {env : Env} {st st' : State}
    (h : Ready p env (detectBackend p env) st true st') : ensureLoaded p env st = (.ok, st') := by
  cases h with
  | already hl => exact if_pos hl
  | fresh hl ho => simp [ensureLoaded, hl, loadBackend_eq, ho, LoadOutcome.code]

theorem ensureLoaded_of_failed {p : Platform} {env : Env} {st : State}
    (hl : st.gBackendLoaded = false)
    (ho : (loadOutcome p env (detectBackend p env) st).code ≠ .ok) :
    ensureLoaded p env st = ((loadOutcome p env (detectBackend p env) st).code,
      (loadOutcome p env (detectBackend p env) st).apply p (detectBackend p env) st) := by
  simp [ensureLoaded, hl, loadBackend_eq, ho]

/-- `unimpi_ensure_loaded` either hands over a ready state or fails as its outcome says. -/
theorem ensureLoaded_cases (p : Platform) (env : Env) (st : State) :
    (∃ st', Ready p env (detectBackend p env) st true st') ∨
      (st.gBackendLoaded = false ∧ (loadOutcome p env (detectBackend p env) st).code ≠ .ok) := by
  cases hl : st.gBackendLoaded with
  | true => exact Or.inl ⟨st, .already hl⟩
  | false =>
    by_cases ho : (loadOutcome p env (detectBackend p env) st).code = .ok
    · obtain ⟨L, t, hfilled⟩ := (loadOutcome_code_eq_ok_iff _ _ _ _).1 ho
      exact Or.inl ⟨_, .fresh hl hfilled⟩
    · exact Or.inr ⟨rfl, ho⟩

theorem Ready.of_gState {p : Platform} {env : Env} {path : CString} {st st1 : State} {r : Bool}
    {g : LifecycleState} (h : Ready p env path { st with gState := g } r st1) :
    ∃ st', Ready p env path st r st' ∧ st1 = { st' with gState := g } := by
  cases h with
  | already hl => exact ⟨st, .already hl, rfl⟩
  | fresh hl ho => exact ⟨_, .fresh hl ho, rfl⟩
  | direct ho => exact ⟨_, .direct ho, rfl⟩

theorem releaseRef_gState (st : State) (g : LifecycleState) :
    releaseRef { st with gState := g } = { releaseRef st with gState := g } := by
  unfold releaseRef
  dsimp only
  split_ifs <;> rfl

theorem finishInit_effect {p : Platform} {env : Env} {st st1 st' : State} {op : Op}
    {ret : ReturnCode} {level : Option Int} (hcheck : checkCanInitialize st = .ok)
    (hpath : op.path p env = some (detectBackend p env)) (hr : op.reuses = true)
    (hready : Ready p env (detectBackend p env) st true st1)
    (hlevel : op.threaded = false → level = none)
    (h : finishInit env level
      { st1 with gState := .initializing, gRefcount := st1.gRefcount + 1 } = (ret, st')) :
    Effect p env st op ret st' := by
  rw [← hr] at hready
  unfold finishInit at h
  split_ifs at h with hret
  · obtain ⟨rfl, rfl⟩ := Prod.mk.inj h
    have heff := Effect.initFailed hcheck hpath hready hret
    have hrel := releaseRef_gState { cleanup st1 with gRefcount := st1.gRefcount + 1 }
      .initializing
    rw [hr] at heff
    simp only [initFailedState, if_true, clearBackendIdentity, cleanup] at heff hrel ⊢
    rw [hrel]
    exact heff
  · obtain ⟨rfl, rfl⟩ := Prod.mk.inj h
    have hl : st1.gBackendLoaded = true := by
      rw [hr] at hready
      cases hready with
      | already hl => exact hl
      | fresh _ _ => rfl
    have hkept : op.threaded = false → level.getD st1.gThreadLevel = st1.gThreadLevel := by
      intro hop
      rw [hlevel hop]
      rfl
    have heff := Effect.started (level.getD st1.gThreadLevel) hcheck hpath hready
      (not_not.1 hret) hkept
    rw [← hl] at heff
    exact heff

theorem initializeBackend_effect {p : Platform} {env : Env} {st st' : State} {op : Op}
    {ret : ReturnCode} {threadMode : Bool} (hcheck : checkCanInitialize st = .ok)
    (hpath : op.path p env = some (detectBackend p env)) (hr : op.reuses = true)
    (hop : op.threaded = threadMode)
    (h : initializeBackend p env threadMode { st with gState := .initializing } =
      .ok (ret, st')) : Effect p env st op ret st' := by
  unfold initializeBackend at h
  rcases ensureLoaded_cases p env { st with gState := .initializing } with
    ⟨st1, hready⟩ | ⟨hl, ho⟩
  · obtain ⟨st2, hready2, rfl⟩ := hready.of_gState
    rw [ensureLoaded_of_ready hready] at h
    simp only [ne_eq, not_true_eq_false, if_false] at h
    split at h
    · cases h
    · refine finishInit_effect hcheck hpath hr hready2 (fun hnot => ?_) (Except.ok.inj h)
      rw [initLevel, ← hop, hnot]
      rfl
  · rw [ensureLoaded_of_failed hl ho] at h
    simp only [ne_eq, ho, not_false_eq_true, if_true] at h
    obtain ⟨rfl, rfl⟩ := Prod.mk.inj (Except.ok.inj h)
    rw [LoadOutcome.apply_gState]
    exact Effect.loadFailed hcheck hpath (fun _ => hl) ho

theorem init_effect {p : Platform} {env : Env} {st st' : State} {ret : ReturnCode}
    (h : init p env st = .ok (ret, st')) : Effect p env st .init ret st' := by
  unfold init at h
  dsimp only at h
  split_ifs at h with hcheck
  · obtain ⟨rfl, rfl⟩ := Prod.mk.inj (Except.ok.inj h)
    exact .refused hcheck (Or.inr ⟨rfl, Or.inr hcheck⟩)
  · exact initializeBackend_effect (not_not.1 hcheck) rfl rfl rfl h

theorem initThread_effect {p : Platform} {env : Env} {st st' : State} {ret : ReturnCode}
    {required : Int} {provided : Bool}
    (h : initThread p env required provided st = .ok (ret, st')) :
    Effect p env st (.initThread required provided) ret st' := by
  unfold initThread at h
  dsimp only at h
  split_ifs at h with hreq hprov hcheck
  · obtain ⟨rfl, rfl⟩ := Prod.mk.inj (Except.ok.inj h)
    refine .refused (by decide) (Or.inr ⟨rfl, Or.inl (if_neg ?_)⟩)
    rintro ⟨hlevel, -⟩
    omega
  · obtain ⟨rfl, rfl⟩ := Prod.mk.inj (Except.ok.inj h)
    refine .refused (by decide) (Or.inr ⟨rfl, Or.inl (if_neg ?_)⟩)
    rintro ⟨-, hpointer⟩
    simp [hpointer] at hprov
  · obtain ⟨rfl, rfl⟩ := Prod.mk.inj (Except.ok.inj h)
    exact .refused hcheck (Or.inr ⟨rfl, Or.inr hcheck⟩)
  · refine initializeBackend_effect (not_not.1 hcheck) (if_pos ⟨by omega, ?_⟩) rfl rfl h
    simpa using hprov

section InitWith

variable {p : Platform} {env : Env} {st : State} {name : CString} {L : Library} {t : Tables}

theorem initWith_failed_effect (hcheck : checkCanInitialize st = .ok)
    (ho : loadOutcome p env (libraryFor name) st = .filled L t) (hret : env.mpiInit ≠ 0) :
    Effect p env st (.initWith (some name)) .errBackendLoad
      { clearBackendIdentity (unloadHandle (cleanup
          { (LoadOutcome.filled L t).apply p (libraryFor name) st with
            gState := .initializing })) with gState := .initFailed } := by
  have hready : Ready p env (libraryFor name) st (Op.initWith (some name)).reuses _ := .direct ho
  have heff := Effect.initFailed hcheck rfl hready hret
  exact heff

theorem initWith_started_effect (hcheck : checkCanInitialize st = .ok)
    (ho : loadOutcome p env (libraryFor name) st = .filled L t) (hret : env.mpiInit = 0) :
    Effect p env st (.initWith (some name)) .ok
      { (LoadOutcome.filled L t).apply p (libraryFor name) st with
        gRefcount := ((LoadOutcome.filled L t).apply p (libraryFor name) st).gRefcount + 1
        gBackendLoaded := true
        gState := .active } :=
  .started st.gThreadLevel hcheck rfl (.direct ho) hret fun _ => rfl

end InitWith

theorem initWith_effect {p : Platform} {env : Env} {st st' : State} {ret : ReturnCode}
    {name : Option CString} (h : initWith p env name st = .ok (ret, st')) :
    Effect p env st (.initWith name) ret st' := by
  cases name with
  | none =>
    obtain ⟨rfl, rfl⟩ := Prod.mk.inj (Except.ok.inj h)
    exact .refused (by decide) (Or.inr ⟨rfl, Or.inl rfl⟩)
  | some name =>
    simp only [initWith, loadBackend_eq, LoadOutcome.apply_gState] at h
    split_ifs at h with hcheck ho hret
    · obtain ⟨rfl, rfl⟩ := Prod.mk.inj (Except.ok.inj h)
      exact .refused hcheck (Or.inr ⟨rfl, Or.inr hcheck⟩)
    · obtain ⟨rfl, rfl⟩ := Prod.mk.inj (Except.ok.inj h)
      exact .loadFailed (not_not.1 hcheck) rfl nofun ho
    · split at h
      · cases h
      · obtain ⟨rfl, rfl⟩ := Prod.mk.inj (Except.ok.inj h)
        obtain ⟨L, t, hfilled⟩ := (loadOutcome_code_eq_ok_iff _ _ _ _).1 (not_not.1 ho)
        rw [hfilled]
        exact initWith_failed_effect (not_not.1 hcheck) hfilled hret
    · split at h
      · cases h
      · obtain ⟨rfl, rfl⟩ := Prod.mk.inj (Except.ok.inj h)
        obtain ⟨L, t, hfilled⟩ := (loadOutcome_code_eq_ok_iff _ _ _ _).1 (not_not.1 ho)
        rw [hfilled]
        exact initWith_started_effect (not_not.1 hcheck) hfilled (not_not.1 hret)

theorem finalize_active_effect {p : Platform} {env : Env} {st : State} (h : st.gState = .active)
    (hcall : callSlot { st with gState := .finalizing } .finalize = .ok ()) :
    Effect p env st .finalize (ofBackend env.mpiFinalize)
      { clearBackendIdentity (releaseRef (cleanup { st with gState := .finalizing })) with
        gThreadLevel := 0
        gState := if env.mpiFinalize = 0 then .finalized else .finalizeFailed } := by
  have hrel := releaseRef_gState (cleanup st) .finalizing
  have heff := @Effect.finalized p env st h hcall
  simp only [finalizedState, clearBackendIdentity, cleanup] at heff hrel ⊢
  rw [hrel]
  exact heff

theorem finalize_effect {p : Platform} {env : Env} {st st' : State} {ret : ReturnCode}
    (h : finalize env st = .ok (ret, st')) : Effect p env st .finalize ret st' := by
  unfold finalize at h
  split at h
  iterate 6
    rename_i hs
    obtain ⟨rfl, rfl⟩ := Prod.mk.inj (Except.ok.inj h)
    exact .refused (by decide) (Or.inl ⟨rfl, by rw [hs]; decide⟩)
  rename_i hs
  dsimp only at h
  split at h
  · cases h
  · rename_i hcall
    obtain ⟨rfl, rfl⟩ := Prod.mk.inj (Except.ok.inj h)
    exact finalize_active_effect hs hcall

theorem mpitInitThread_effect {p : Platform} {env : Env} {st st' : State} {ret : ReturnCode}
    (h : mpitInitThread p env st = .ok (ret, st')) : Effect p env st .mpitInitThread ret st' := by
  unfold mpitInitThread at h
  rcases ensureLoaded_cases p env st with ⟨st1, hready⟩ | ⟨hl, ho⟩
  · simp only [ensureLoaded_of_ready hready, ne_eq, not_true_eq_false, if_false] at h
    split at h
    · cases h
    · rename_i hcall
      obtain ⟨rfl, rfl⟩ := Prod.mk.inj (Except.ok.inj h)
      exact .mpitStarted hready hcall
  · simp only [ensureLoaded_of_failed hl ho, ne_eq, ho, not_false_eq_true, if_true] at h
    obtain ⟨rfl, rfl⟩ := Prod.mk.inj (Except.ok.inj h)
    exact .mpitLoadFailed hl ho

theorem mpitFinalize_effect {p : Platform} {env : Env} {st st' : State} {ret : ReturnCode}
    (h : mpitFinalize env st = .ok (ret, st')) : Effect p env st .mpitFinalize ret st' := by
  unfold mpitFinalize at h
  split at h
  · cases h
  · rename_i hcall
    obtain ⟨rfl, rfl⟩ := Prod.mk.inj (Except.ok.inj h)
    exact .mpitFinalized hcall

/-- A call that does not fault ends in one of the ways of `Effect`. -/
theorem exec_effect {p : Platform} {op : Op} {env : Env} {st st' : State} {ret : ReturnCode}
    (h : exec p op env st = .ok (ret, st')) : Effect p env st op ret st' := by
  cases op with
  | init => exact init_effect h
  | initThread required provided => exact initThread_effect h
  | initWith name => exact initWith_effect h
  | finalize => exact finalize_effect h
  | mpitInitThread => exact mpitInitThread_effect h
  | mpitFinalize => exact mpitFinalize_effect h

/-! ## What the effects do to the parts of the state -/

@[simp] theorem LoadOutcome.apply_gRefcount (p : Platform) (path : CString) (st : State)
    (o : LoadOutcome) : (o.apply p path st).gRefcount = st.gRefcount := by
  cases o <;> rfl

@[simp] theorem LoadOutcome.apply_gBackendLoaded (p : Platform) (path : CString) (st : State)
    (o : LoadOutcome) : (o.apply p path st).gBackendLoaded = st.gBackendLoaded := by
  cases o <;> rfl

@[simp] theorem LoadOutcome.apply_gState_eq (p : Platform) (path : CString) (st : State)
    (o : LoadOutcome) : (o.apply p path st).gState = st.gState := by
  cases o <;> rfl

/-- Failed loading leaves no handle. -/
theorem LoadOutcome.apply_gHandle_of_failed {p : Platform} {path : CString} {st : State}
    {o : LoadOutcome} (h : o.code ≠ .ok) : (o.apply p path st).gHandle = none := by
  cases o with
  | filled L t => exact absurd rfl h
  | _ => rfl

theorem LoadOutcome.apply_identity_of_failed {p : Platform} {path : CString} {st : State}
    {o : LoadOutcome} (h : o.code ≠ .ok) :
    (o.apply p path st).gBackendIdentity = st.gBackendIdentity := by
  cases o with
  | filled L t => exact absurd rfl h
  | _ => rfl

/-- Failed loading closes what it has opened. -/
theorem LoadOutcome.apply_linker_of_failed {p : Platform} {path : CString} {st : State}
    {o : LoadOutcome} (h : o.code ≠ .ok) :
    (o.apply p path st).linker = st.linker ∨
      ∃ k, (o.apply p path st).linker = (st.linker.openLib k).closeLib k := by
  cases o with
  | notLoaded ret => exact Or.inl rfl
  | missingCore L => exact Or.inr ⟨L.handle, rfl⟩
  | refused L ret => exact Or.inr ⟨L.handle, rfl⟩
  | unfilled L => exact Or.inr ⟨L.handle, rfl⟩
  | filled L t => exact absurd rfl h

theorem LoadOutcome.isOpen_of_failed {p : Platform} {path : CString} {st : State}
    {o : LoadOutcome} (h : o.code ≠ .ok) {k : ℕ} :
    (o.apply p path st).linker.IsOpen k ↔ st.linker.IsOpen k := by
  rcases o.apply_linker_of_failed h with heq | ⟨k', heq⟩
  · rw [heq]
  · rw [heq, Linker.isOpen_openLib_closeLib]

/-- A release that is not the last, or finds no handle, only counts. -/
theorem releaseRef_of_held {st : State} (h : 1 < st.gRefcount ∨ st.gHandle = none) :
    releaseRef st = { st with gRefcount := st.gRefcount - 1 } := by
  refine if_neg ?_
  rintro ⟨hr, hL⟩
  rcases h with h | h
  · simp only at hr
    omega
  · simp [h] at hL

/-- The last release closes the library. -/
theorem releaseRef_of_last {st : State} {L : Library} (hr : st.gRefcount ≤ 1)
    (hL : st.gHandle = some L) :
    releaseRef st = { st with
      gRefcount := st.gRefcount - 1
      gHandle := none
      linker := st.linker.closeLib L.handle
      gBackendLoaded := false } := by
  simp [releaseRef, unloadHandle, hL, hr]

theorem releaseRef_gHandle_of_last {st : State} (hr : st.gRefcount ≤ 1) :
    (releaseRef st).gHandle = none := by
  cases hL : st.gHandle with
  | none =>
    rw [releaseRef_of_held (Or.inr hL)]
    exact hL
  | some L => rw [releaseRef_of_last hr hL]

@[simp] theorem releaseRef_gRefcount (st : State) :
    (releaseRef st).gRefcount = st.gRefcount - 1 := by
  simp only [releaseRef, unloadHandle]
  split_ifs <;> rfl

@[simp] theorem releaseRef_tables (st : State) : (releaseRef st).tables = st.tables := by
  simp only [releaseRef, unloadHandle]
  split_ifs <;> rfl

/-- A release opens nothing. -/
@[simp] theorem releaseRef_opened (st : State) :
    (releaseRef st).linker.opened = st.linker.opened := by
  unfold releaseRef unloadHandle
  dsimp only
  split_ifs
  · cases st.gHandle <;> rfl
  · rfl

@[simp] theorem releaseRef_gState_eq (st : State) : (releaseRef st).gState = st.gState := by
  simp only [releaseRef, unloadHandle]
  split_ifs <;> rfl

theorem finalizedState_not_active (env : Env) (st : State) :
    (finalizedState env st).gState ≠ .active := by
  simp only [finalizedState]
  split_ifs <;> nofun

section Ready

variable {p : Platform} {env : Env} {path : CString} {st st' : State} {r : Bool}

theorem Ready.gRefcount (h : Ready p env path st r st') : st'.gRefcount = st.gRefcount := by
  cases h <;> rfl

theorem Ready.gState (h : Ready p env path st r st') : st'.gState = st.gState := by
  cases h <;> rfl

theorem Ready.loaded (h : Ready p env path st true st') : st'.gBackendLoaded = true := by
  cases h with
  | already hl => exact hl
  | fresh hl ho => rfl

end Ready

/-! ## Runs -/

/-- A call and what its environment answers. -/
structure Call where
  op : Op
  env : Env

/-- The facade and the number of unmatched `mpitInitThread` calls. -/
structure Sys where
  core : State
  unmatched : ℕ

def Sys.initial : Sys :=
  ⟨.initial, 0⟩

/-- The number of unmatched `mpitInitThread` calls after a call. One that fails in loading does not
count. -/
def Sys.unmatchedAfter (p : Platform) (s : Sys) (c : Call) : ℕ :=
  match c.op with
  | .mpitInitThread =>
    if (ensureLoaded p c.env s.core).1 = .ok then s.unmatched + 1 else s.unmatched
  | .mpitFinalize => s.unmatched - 1
  | _ => s.unmatched

/-- One call; `none` when it faults, or finalizes the tools interface while no call is unmatched. -/
def Sys.after (p : Platform) (s : Sys) (c : Call) : Option Sys :=
  if c.op = .mpitFinalize ∧ s.unmatched = 0 then none
  else match exec p c.op c.env s.core with
    | .ok (_, core) => some ⟨core, s.unmatchedAfter p c⟩
    | .error _ => none

/-- A step is a call that returns. -/
def Step (p : Platform) (s : Sys) (c : Call) (s' : Sys) : Prop :=
  s.after p c = some s'

theorem Step.cases {p : Platform} {s s' : Sys} {c : Call} (h : Step p s c s') :
    (c.op = .mpitFinalize → 0 < s.unmatched) ∧
      (∃ ret, exec p c.op c.env s.core = .ok (ret, s'.core)) ∧
      s'.unmatched = s.unmatchedAfter p c := by
  unfold Step Sys.after at h
  split_ifs at h with hbal
  split at h
  · rename_i ret core hexec
    obtain rfl := Option.some.inj h
    refine ⟨fun hop => ?_, ⟨ret, hexec⟩, rfl⟩
    exact Nat.pos_of_ne_zero fun hzero => hbal ⟨hop, hzero⟩
  · cases h

theorem Step.of_exec {p : Platform} {s : Sys} {c : Call} {ret : ReturnCode} {core : State}
    (hbal : c.op ≠ .mpitFinalize) (h : exec p c.op c.env s.core = .ok (ret, core)) :
    Step p s c ⟨core, s.unmatchedAfter p c⟩ := by
  unfold Step Sys.after
  rw [if_neg fun hop => hbal hop.1, h]

/-- A list of calls, one after another. -/
def Sys.afterAll (p : Platform) : Sys → List Call → Option Sys
  | s, [] => some s
  | s, c :: cs => (s.after p c).bind fun s' => s'.afterAll p cs

/-- What the reference count says about the handle. -/
structure Held (st : State) : Prop where
  unloaded : st.gBackendLoaded = false → st.gRefcount = 0
  unheld : st.gRefcount = 0 → st.gHandle = none
  balanced : st.linker.Balanced
  open_of_handle : ∀ L, st.gHandle = some L → st.linker.IsOpen L.handle

/-- What every run keeps: one reference for the MPI interface while it is active and one for each
unmatched call. -/
structure Inv (s : Sys) : Prop extends Held s.core where
  refcount : s.core.gRefcount = (if s.core.gState = .active then 1 else 0) + s.unmatched
  settled : s.core.gState ≠ .initializing ∧ s.core.gState ≠ .finalizing

theorem Inv.initial : Inv Sys.initial where
  unloaded _ := rfl
  unheld _ := rfl
  balanced _ := Nat.le_refl _
  open_of_handle L h := by cases h
  refcount := rfl
  settled := ⟨nofun, nofun⟩

theorem Inv.refcount_nonneg {s : Sys} (h : Inv s) : 0 ≤ s.core.gRefcount := by
  rw [h.refcount]
  split_ifs <;> omega

/-- The state after a failed initialisation over a library that stays loaded. -/
def retainedState (st : State) : State :=
  { clearBackendIdentity (cleanup st) with gState := .initFailed }

/-- The state after a failed initialisation that closes the library it has loaded. -/
def abandonedState (p : Platform) (path : CString) (st : State) (L : Library) (t : Tables) :
    State :=
  { clearBackendIdentity (cleanup ((LoadOutcome.filled L t).apply p path st)) with
    gHandle := none
    linker := (st.linker.openLib L.handle).closeLib L.handle
    gState := .initFailed }

/-- A failed `MPI_Init` keeps a library that was loaded before, and closes one that was not. -/
theorem initFailedState_cases {p : Platform} {env : Env} {path : CString} {s : Sys} {r : Bool}
    {st' : State} (hinv : Inv s) (hready : Ready p env path s.core r st') :
    r = true ∧ s.core.gBackendLoaded = true ∧ initFailedState r st' = retainedState s.core ∨
      ∃ L t, loadOutcome p env path s.core = .filled L t ∧
        (r = true → s.core.gBackendLoaded = false) ∧
        initFailedState r st' = abandonedState p path s.core L t := by
  cases hready with
  | already hl =>
    have hheld : 1 < s.core.gRefcount + 1 ∨ s.core.gHandle = none := by
      by_cases hzero : s.core.gRefcount = 0
      · exact Or.inr (hinv.unheld hzero)
      · have hpos := hinv.refcount_nonneg
        exact Or.inl (by omega)
    refine Or.inl ⟨rfl, hl, ?_⟩
    rw [initFailedState, if_pos rfl, releaseRef_of_held (by exact hheld)]
    simp [retainedState, clearBackendIdentity, cleanup]
  | @fresh L t hl ho =>
    refine Or.inr ⟨L, t, ho, fun _ => hl, ?_⟩
    have hzero := hinv.unloaded hl
    rw [initFailedState, if_pos rfl, @releaseRef_of_last _ L (by simp [hzero]) rfl]
    simp [abandonedState, clearBackendIdentity, cleanup, hl]
    rfl
  | @direct L t ho => exact Or.inr ⟨L, t, ho, nofun, rfl⟩

/-! ## Every run keeps the invariant -/

section Held

variable {p : Platform} {env : Env} {path : CString} {st st' : State}

theorem Held.of_eq (h : Held st) (hr : st'.gRefcount = st.gRefcount)
    (hl : st'.gBackendLoaded = st.gBackendLoaded) (hL : st'.gHandle = st.gHandle)
    (hk : st'.linker = st.linker) : Held st' := by
  refine ⟨?_, ?_, ?_, ?_⟩
  · rw [hl, hr]
    exact h.unloaded
  · rw [hr, hL]
    exact h.unheld
  · rw [hk]
    exact h.balanced
  · rw [hL, hk]
    exact h.open_of_handle

/-- Giving up a reference that is counted keeps what the count says. -/
theorem Held.releaseRef (h : Held st) (hpos : 0 < st.gRefcount) : Held (releaseRef st) := by
  by_cases hheld : 1 < st.gRefcount ∨ st.gHandle = none
  · rw [releaseRef_of_held hheld]
    refine ⟨fun hl => ?_, fun hzero => ?_, h.balanced, h.open_of_handle⟩
    · have := h.unloaded hl
      omega
    · rcases hheld with hmore | hnone
      · simp only at hzero
        omega
      · exact hnone
  · obtain ⟨hr, hsome⟩ := not_or.1 hheld
    obtain ⟨L, hL⟩ := Option.ne_none_iff_exists'.1 hsome
    rw [releaseRef_of_last (by omega) hL]
    refine ⟨fun _ => ?_, fun _ => rfl, h.balanced.closeLib (h.open_of_handle L hL), nofun⟩
    simp only
    omega

theorem Held.loadFailed (h : Held st) {o : LoadOutcome} (ho : o.code ≠ .ok) :
    Held (o.apply p path st) := by
  refine ⟨?_, fun _ => o.apply_gHandle_of_failed ho, ?_, fun L hL => ?_⟩
  · rw [o.apply_gBackendLoaded, o.apply_gRefcount]
    exact h.unloaded
  · rcases o.apply_linker_of_failed ho with heq | ⟨k, heq⟩
    · rw [heq]
      exact h.balanced
    · rw [heq]
      exact h.balanced.openLib_closeLib k
  · rw [o.apply_gHandle_of_failed ho] at hL
    cases hL

theorem Held.abandoned (h : Held st) (L : Library) (t : Tables) :
    Held (abandonedState p path st L t) :=
  ⟨h.unloaded, fun _ => rfl, h.balanced.openLib_closeLib L.handle, nofun⟩

/-- A ready state whose new reference is counted. -/
theorem Held.ready (h : Held st) {r : Bool} (hready : Ready p env path st r st')
    (hpos : 0 ≤ st.gRefcount) :
    Held { st' with gRefcount := st'.gRefcount + 1, gBackendLoaded := true } := by
  refine ⟨nofun, fun hzero => ?_, ?_, ?_⟩
  · cases hready <;> simp at hzero <;> omega
  · cases hready with
    | already hl => exact h.balanced
    | fresh hl ho => exact h.balanced.openLib _
    | direct ho => exact h.balanced.openLib _
  · cases hready with
    | already hl => exact h.open_of_handle
    | fresh hl ho =>
      rintro L hL
      cases hL
      exact Linker.isOpen_openLib_self (h.balanced _)
    | direct ho =>
      rintro L hL
      cases hL
      exact Linker.isOpen_openLib_self (h.balanced _)

end Held

theorem Op.initializes_of_path {p : Platform} {env : Env} {op : Op} {path : CString}
    (h : op.path p env = some path) : op.initializes = true := by
  cases op with
  | init | initThread _ _ | initWith _ => rfl
  | finalize | mpitInitThread | mpitFinalize => cases h

/-- An initialisation that has a path and passes its check is not refused. -/
theorem not_refused {p : Platform} {env : Env} {st : State} {op : Op} {path : CString}
    (hcheck : checkCanInitialize st = .ok) (hpath : op.path p env = some path) :
    ¬(op = .finalize ∧ st.gState ≠ .active ∨
      op.initializes ∧ (op.path p env = none ∨ checkCanInitialize st ≠ .ok)) := by
  rintro (⟨rfl, -⟩ | ⟨-, hnone | hrefused⟩)
  · cases hpath
  · exact absurd (hpath.symm.trans hnone) (Option.some_ne_none path)
  · exact hrefused hcheck

/-- Only the calls of the tools interface change the number of unmatched calls. -/
theorem Sys.unmatchedAfter_of_initializes {p : Platform} {s : Sys} {op : Op} {env : Env}
    (h : op.initializes = true) : s.unmatchedAfter p ⟨op, env⟩ = s.unmatched := by
  cases op with
  | init | initThread _ _ | initWith _ => rfl
  | finalize | mpitInitThread | mpitFinalize => cases h

theorem not_active_of_check {st : State} (h : checkCanInitialize st = .ok) :
    st.gState ≠ .active := by
  intro hactive
  rw [checkCanInitialize, hactive] at h
  cases h

theorem Inv.refcount_of_active {s : Sys} (h : Inv s) (hs : s.core.gState = .active) :
    s.core.gRefcount = 1 + s.unmatched := by
  rw [h.refcount, if_pos hs]

theorem Inv.loaded_of_active {s : Sys} (h : Inv s) (hs : s.core.gState = .active) :
    s.core.gBackendLoaded = true := by
  by_contra hl
  have hzero := h.unloaded (Bool.eq_false_iff.2 hl)
  rw [h.refcount_of_active hs] at hzero
  omega

theorem Inv.not_active_of_unloaded {s : Sys} (h : Inv s) (hl : s.core.gBackendLoaded = false) :
    s.core.gState ≠ .active :=
  fun hs => ne_true_of_eq_false hl (h.loaded_of_active hs)

theorem Inv.step {p : Platform} {s s' : Sys} {c : Call} (h : Step p s c s') (hinv : Inv s) :
    Inv s' := by
  obtain ⟨op, env⟩ := c
  obtain ⟨core', n⟩ := s'
  obtain ⟨hbal, ⟨ret, hexec⟩, hcount⟩ := h.cases
  have hpos := hinv.refcount_nonneg
  dsimp only at hexec hcount hbal
  subst hcount
  cases exec_effect hexec with
  | refused hret hwhy =>
    have hsame : s.unmatchedAfter p ⟨op, env⟩ = s.unmatched := by
      rcases hwhy with ⟨rfl, -⟩ | ⟨hinit, -⟩
      · rfl
      · exact Sys.unmatchedAfter_of_initializes hinit
    rw [hsame]
    exact hinv
  | loadFailed hcheck hpath hl ho =>
    refine ⟨(hinv.toHeld.loadFailed ho).of_eq rfl rfl rfl rfl, ?_, nofun, nofun⟩
    simp [Sys.unmatchedAfter_of_initializes (Op.initializes_of_path hpath), hinv.refcount,
      not_active_of_check hcheck]
  | initFailed hcheck hpath hready hret =>
    rcases initFailedState_cases hinv hready with ⟨-, -, heq⟩ | ⟨L, t, -, -, heq⟩
    · rw [heq]
      refine ⟨hinv.toHeld.of_eq rfl rfl rfl rfl, ?_, nofun, nofun⟩
      simp [Sys.unmatchedAfter_of_initializes (Op.initializes_of_path hpath), retainedState,
        clearBackendIdentity, cleanup, hinv.refcount, not_active_of_check hcheck]
    · rw [heq]
      refine ⟨hinv.toHeld.abandoned L t, ?_, nofun, nofun⟩
      simp [Sys.unmatchedAfter_of_initializes (Op.initializes_of_path hpath), abandonedState,
        clearBackendIdentity, cleanup, hinv.refcount, not_active_of_check hcheck]
  | started level hcheck hpath hready hret hlevel =>
    refine ⟨(hinv.toHeld.ready hready hpos).of_eq rfl rfl rfl rfl, ?_, nofun, nofun⟩
    simp [Sys.unmatchedAfter_of_initializes (Op.initializes_of_path hpath), hready.gRefcount,
      hinv.refcount, not_active_of_check hcheck, Int.add_comm]
  | finalized hactive hcall =>
    have hcount := hinv.refcount
    simp only [hactive, if_true] at hcount
    refine ⟨((hinv.toHeld.of_eq rfl rfl rfl rfl : Held (cleanup s.core)).releaseRef ?_).of_eq
      rfl rfl rfl rfl, ?_, ?_⟩
    · simp only [cleanup]
      omega
    · rw [if_neg (finalizedState_not_active env s.core)]
      refine (releaseRef_gRefcount (cleanup s.core)).trans ?_
      simp only [cleanup, Sys.unmatchedAfter]
      omega
    · simp only [finalizedState]
      split_ifs <;> exact ⟨nofun, nofun⟩
  | mpitLoadFailed hl ho =>
    have hfail : (ensureLoaded p env s.core).1 ≠ .ok := by
      rw [ensureLoaded_of_failed hl ho]
      exact ho
    refine ⟨hinv.toHeld.loadFailed ho, ?_, ?_⟩
    · simp [Sys.unmatchedAfter, hfail, hinv.refcount]
    · rw [LoadOutcome.apply_gState_eq]
      exact hinv.settled
  | mpitStarted hready hcall =>
    refine ⟨(hinv.toHeld.ready hready hpos).of_eq rfl hready.loaded rfl rfl, ?_, ?_⟩
    · simp [Sys.unmatchedAfter, ensureLoaded_of_ready hready, hready.gRefcount, hready.gState,
        hinv.refcount, Int.add_assoc]
    · rw [hready.gState]
      exact hinv.settled
  | mpitFinalized hcall =>
    have hcount := hinv.refcount
    have hunmatched := hbal rfl
    refine ⟨(hinv.toHeld.of_eq rfl rfl rfl rfl :
      Held { s.core with gMpitInited := false }).releaseRef ?_, ?_, ?_⟩
    · simp only
      omega
    · rw [releaseRef_gState_eq]
      refine (releaseRef_gRefcount _).trans ?_
      simp only [Sys.unmatchedAfter]
      omega
    · rw [releaseRef_gState_eq]
      exact hinv.settled

theorem Inv.of_reaches {p : Platform} {C : Sys → Call → Prop} {s : Sys}
    (h : Reaches (Step p) C Sys.initial s) : Inv s :=
  h.invariant (fun _ _ _ _ hstep hinv => hinv.step hstep) Inv.initial

/-- What a list of calls leads to is reached, if the calls are permitted in every state. -/
theorem reaches_afterAll {p : Platform} {C : Sys → Call → Prop} {s₀ s' : Sys} :
    ∀ {cs : List Call} {s : Sys}, Reaches (Step p) C s₀ s → (∀ c ∈ cs, ∀ t, C t c) →
      s.afterAll p cs = some s' → Reaches (Step p) C s₀ s'
  | [], s, hs, _, h => by
    rw [← Option.some.inj h]
    exact hs
  | c :: cs, s, hs, hC, h => by
    obtain ⟨t, hstep, hrest⟩ := Option.bind_eq_some_iff.1 h
    exact reaches_afterAll (.tail hs (hC c List.mem_cons_self s) hstep)
      (fun c' hc' => hC c' (List.mem_cons_of_mem _ hc')) hrest

/-! ## Concrete environments -/

/-- A library with the given symbols, whose variables hold `0`. -/
def Library.ofSymbols (handle : ℕ) (symbols : List String) : Library where
  handle := handle
  dlsym symbol := (symbols.idxOf? symbol).elim 0 (· + 1)
  peek _ := 0

/-- An environment without variables that offers at most one library, under every path, and whose
backend answers `MPI_Init` with `mpiInit` and all else with `0`. -/
def Env.offering (library : Option Library) (mpiInit : Int) : Env where
  unimpiBackend := none
  unimpiLibrary := none
  dlopen _ := library
  mpiInit := mpiInit
  mpiFinalize := 0
  mpitInit := 0
  mpitFinalize := 0
  provided := 0

/-- Such an environment has no other library to load. -/
theorem eq_of_loaderLoad_offering {L L' : Library} {i : Int} {path : CString}
    (h : loaderLoad (.offering (some L) i) path = .ok L') : L' = L := by
  unfold loaderLoad at h
  split_ifs at h
  exact (Except.ok.inj h).symm

/-- Loading that succeeds in such an environment has filled the tables for its library. -/
theorem exists_filled_offering {p : Platform} {L : Library} {i : Int} {path : CString} {st : State}
    (h : (loadOutcome p (.offering (some L) i) path st).code = .ok) :
    ∃ t, loadOutcome p (.offering (some L) i) path st = .filled L t := by
  obtain ⟨L', t, ho⟩ := (loadOutcome_code_eq_ok_iff _ _ _ _).1 h
  obtain rfl := eq_of_loaderLoad_offering (loaderLoad_of_filled ho).1
  exact ⟨t, ho⟩

/-- A library of the MPICH family with the two lifecycle functions of the tools interface. -/
def mpichLibrary : Library :=
  .ofSymbols 1 ["MPI_Init", "MPI_Finalize", "MPI_Comm_size", "MPI_Comm_rank", "MPIR_Dup_fn",
    "MPI_T_init_thread", "MPI_T_finalize"]

end UniMPI
