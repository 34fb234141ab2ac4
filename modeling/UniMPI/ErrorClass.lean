import UniMPI.History
import UniMPI.Provenance

/-!
# Error classes

`unimpi_error_class` maps a code of the facade to one of four variables that a fill
assigns: `MPI_SUCCESS`, `MPI_ERR_ARG`, `MPI_ERR_OTHER` and `MPI_ERR_UNKNOWN`. All four
are `0` in a fresh process. No call but a successful fill changes them
(`Step.lasting`, `Step.fills`), and every fill gives the three errors a class other
than success, so that errors are told from success exactly once some call has filled
the tables (`classifiesErrors_iff`).
-/

namespace UniMPI

open Runs

/-! ## The function -/

/-- `UNIMPI_OK`. -/
def unimpiOk : Int := 0

/-- `UNIMPI_ERR_NO_BACKEND`. -/
def unimpiErrNoBackend : Int := -1

/-- `UNIMPI_ERR_BACKEND_LOAD`. -/
def unimpiErrBackendLoad : Int := -2

/-- `UNIMPI_ERR_INVALID_ARGUMENT`. -/
def unimpiErrInvalidArgument : Int := -8

/-- `UNIMPI_ERR_BACKEND_INIT_FAILED`. -/
def unimpiErrBackendInitFailed : Int := -10

/-- The variable whose value `unimpi_error_class` stores for a code. -/
def classOf (errorCode : Int) : Global :=
  if errorCode = unimpiOk then .success
  else if errorCode = unimpiErrInvalidArgument then .errArg
  else if errorCode = unimpiErrNoBackend ∨ errorCode = unimpiErrBackendLoad ∨
      errorCode = unimpiErrBackendInitFailed then .errOther
  else .errUnknown

/-- `unimpi_error_class`: the return code, and what it stores if the caller passed a pointer. -/
def unimpiErrorClass (globals : Global → Int) (errorCode : Int) (errorClass : Bool) :
    Int × Option Int :=
  if !errorClass then (unimpiErrInvalidArgument, none)
  else (unimpiOk, some (globals (classOf errorCode)))

/-- Every error is stored as a class other than `MPI_SUCCESS`. -/
def ClassifiesErrors (st : State) : Prop :=
  ∀ errorCode, errorCode ≠ unimpiOk →
    ∃ errorClass, unimpiErrorClass st.tables.globals errorCode true = (unimpiOk, some errorClass) ∧
      errorClass ≠ st.tables.globals .success

/-- The variables the function reads. -/
def Global.isClass : Global → Bool
  | .success | .errArg | .errOther | .errUnknown => true
  | _ => false

theorem isClass_classOf (errorCode : Int) : (classOf errorCode).isClass = true := by
  unfold classOf
  split_ifs <;> rfl

theorem classOf_error {errorCode : Int} (h : errorCode ≠ unimpiOk) :
    classOf errorCode = .errArg ∨ classOf errorCode = .errOther ∨
      classOf errorCode = .errUnknown := by
  unfold classOf
  rw [if_neg h]
  split_ifs
  · exact Or.inl rfl
  · exact Or.inr (Or.inl rfl)
  · exact Or.inr (Or.inr rfl)

theorem classifiesErrors_iff_ne (st : State) :
    ClassifiesErrors st ↔ ∀ errorCode, errorCode ≠ unimpiOk →
      st.tables.globals (classOf errorCode) ≠ st.tables.globals .success := by
  refine forall₂_congr fun errorCode _ => ?_
  simp [unimpiErrorClass]

/-- States with the same classes classify alike. -/
theorem classifiesErrors_congr {st st' : State}
    (h : ∀ g : Global, g.isClass = true → st'.tables.globals g = st.tables.globals g) :
    ClassifiesErrors st' ↔ ClassifiesErrors st := by
  simp only [classifiesErrors_iff_ne, h _ (isClass_classOf _), h .success rfl]

/-! ## What the calls do to the classes -/

/-- No backend has an error class `0`. -/
theorem backendValue_isClass (b : BackendType) (L : Library) :
    backendValue b L .success = some 0 ∧
      ∀ g, g = .errArg ∨ g = .errOther ∨ g = .errUnknown →
        ∃ v, backendValue b L g = some v ∧ v ≠ 0 := by
  refine ⟨by cases b <;> rfl, ?_⟩
  rintro g (rfl | rfl | rfl) <;> cases b <;> exact ⟨_, rfl, by decide⟩

theorem ne_statusIgnore_of_isClass {g : Global} (h : g.isClass = true) : g ≠ .statusIgnore := by
  rintro rfl
  cases h

theorem openmpiCallbackSymbol_of_isClass {g : Global} (h : g.isClass = true) :
    openmpiCallbackSymbol g = none := by
  cases g <;> first
    | rfl
    | cases h

theorem vtableCleanup_isClass {t : Tables} {g : Global} (h : g.isClass = true) :
    (vtableCleanup t).globals g = t.globals g := by
  cases g <;> first
    | rfl
    | cases h

/-- Loading changes a class only by a successful fill. -/
theorem LoadOutcome.apply_isClass {p : Platform} {path : CString} {st : State} {o : LoadOutcome}
    (ho : o.code ≠ .ok) {g : Global} (h : g.isClass = true) :
    (o.apply p path st).tables.globals g = st.tables.globals g := by
  have hstart := vtableInitStart_globals (t := st.tables) (ne_statusIgnore_of_isClass h)
  cases o with
  | notLoaded ret => rfl
  | missingCore L => exact hstart
  | refused L ret => exact hstart
  | unfilled L =>
    exact (openmpiFillStart_other (openmpiCallbackSymbol_of_isClass h)).trans hstart
  | filled L t => exact absurd rfl ho

theorem initFailedState_isClass (r : Bool) (st : State) {g : Global} (h : g.isClass = true) :
    (initFailedState r st).tables.globals g = st.tables.globals g := by
  unfold initFailedState
  cases r with
  | true =>
    simp only [if_true, clearBackendIdentity, releaseRef_tables]
    exact vtableCleanup_isClass h
  | false => exact vtableCleanup_isClass h

theorem finalizedState_isClass (env : Env) (st : State) {g : Global} (h : g.isClass = true) :
    (finalizedState env st).tables.globals g = st.tables.globals g := by
  simp only [finalizedState, clearBackendIdentity, releaseRef_tables]
  exact vtableCleanup_isClass h

/-- After its loading a call changes no class. -/
theorem Effect.isClass {p : Platform} {env : Env} {st st' : State} {op : Op} {ret : ReturnCode}
    (heff : Effect p env st op ret st') {g : Global} (h : g.isClass = true) :
    st'.tables.globals g = (Call.loaded p ⟨op, env⟩ st).tables.globals g := by
  cases heff with
  | refused hret hwhy => rw [Call.loaded_of_none (Call.loads_of_refused hwhy)]
  | loadFailed hcheck hpath hl ho => rw [Call.loaded_of_failed hcheck hpath hl]
  | @initFailed _ _ st1 hcheck hpath hready hret =>
    rw [initFailedState_isClass _ _ h, hready.eq_loaded_of_path hcheck hpath]
  | started level hcheck hpath hready hret hlevel =>
    rw [hready.eq_loaded_of_path hcheck hpath]
  | finalized hactive hcall =>
    rw [Call.loaded_of_none (Call.loads_eq_none (Or.inl rfl) (by decide)),
      finalizedState_isClass env st h]
  | mpitLoadFailed hl ho => rw [Call.loaded_of_tools hl]
  | mpitStarted hready hcall => rw [hready.eq_loaded_of_tools]
  | mpitFinalized hcall =>
    rw [Call.loaded_of_none (Call.loads_eq_none (Or.inl rfl) (by decide)), releaseRef_tables]

/-- The call fills the tables. -/
def Fills (p : Platform) (s : Sys) (c : Call) : Prop :=
  ∃ path, c.loads p s.core = some path ∧ (loadOutcome p c.env path s.core).code = .ok

theorem Step.isClass {p : Platform} {s s' : Sys} {c : Call} (hstep : Step p s c s') {g : Global}
    (h : g.isClass = true) :
    s'.core.tables.globals g = (c.loaded p s.core).tables.globals g := by
  obtain ⟨-, ⟨ret, hexec⟩, -⟩ := hstep.cases
  exact (exec_effect hexec).isClass h

/-- A call that fills no table leaves the classes alone. -/
theorem Step.lasting {p : Platform} {s s' : Sys} {c : Call} (hstep : Step p s c s')
    (hfills : ¬Fills p s c) {g : Global} (h : g.isClass = true) :
    s'.core.tables.globals g = s.core.tables.globals g := by
  rw [hstep.isClass h]
  cases hloads : c.loads p s.core with
  | none => rw [Call.loaded_of_none hloads]
  | some path =>
    rw [Call.loaded_of_some hloads]
    exact LoadOutcome.apply_isClass (fun hok => hfills ⟨path, hloads, hok⟩) h

/-- A call that fills the tables makes errors classified. -/
theorem Step.fills {p : Platform} {s s' : Sys} {c : Call} (hstep : Step p s c s')
    (hfills : Fills p s c) : ClassifiesErrors s'.core := by
  obtain ⟨path, hloads, hok⟩ := hfills
  obtain ⟨L, t, ho⟩ := (loadOutcome_code_eq_ok_iff _ _ _ _).1 hok
  have hfill := (loaderLoad_of_filled ho).2.2.2
  have hclass : ∀ g v, g.isClass = true → backendValue (identifyBackend p L) L g = some v →
      s'.core.tables.globals g = v := by
    intro g v hg hv
    rw [hstep.isClass hg, Call.loaded_of_some hloads, ho]
    exact fill_global_of_assigned hfill hv
  obtain ⟨hsuccess, herror⟩ := backendValue_isClass (identifyBackend p L) L
  rw [classifiesErrors_iff_ne]
  intro errorCode hcode
  obtain ⟨v, hv, hne⟩ := herror _ (classOf_error hcode)
  rw [hclass _ v (isClass_classOf errorCode) hv, hclass .success 0 rfl hsuccess]
  exact hne

/-! ## Runs -/

theorem not_classifiesErrors_initial : ¬ClassifiesErrors State.initial := by
  rw [classifiesErrors_iff_ne]
  intro h
  exact h unimpiErrNoBackend (by decide) rfl

/-- In every reachable state, every error is told from success exactly if some earlier call has
filled the tables. -/
theorem classifiesErrors_iff {p : Platform} {s : Sys}
    (h : Reaches (Step p) (fun _ _ => True) Sys.initial s) :
    ClassifiesErrors s.core ↔ ¬Reaches (Step p) (fun t c => ¬Fills p t c) Sys.initial s := by
  rw [← not_iff_not, not_not]
  refine Reaches.iff_of_lasting (P := fun t => ¬ClassifiesErrors t.core) ?_ ?_
    not_classifiesErrors_initial h
  · intro t c u hstep ht hC
    rwa [classifiesErrors_congr fun g => hstep.lasting hC]
  · intro t c u hstep hu
    have hC : ¬Fills p t c := fun hfills => hu (hstep.fills hfills)
    rw [classifiesErrors_congr fun g => hstep.lasting hC] at hu
    exact ⟨hu, hC⟩

/-! ## An initialisation without a library -/

/-- `MPI_Init` finds no library. -/
def unlocatedInit : Call :=
  ⟨.init, .offering none 0⟩

theorem exists_after_unlocatedInit : ∃ s, Sys.initial.after .linux unlocatedInit = some s ∧
    unimpiErrorClass s.core.tables.globals unimpiErrBackendLoad true =
      (unimpiOk, some (s.core.tables.globals .success)) := by
  have hrun : ((Sys.initial.after .linux unlocatedInit).map fun s =>
      (unimpiErrorClass s.core.tables.globals unimpiErrBackendLoad true,
        s.core.tables.globals .success)) = some ((0, some 0), 0) := by decide +kernel
  obtain ⟨s, hs, hpair⟩ := Option.map_eq_some_iff.1 hrun
  obtain ⟨hclass, hsuccess⟩ := Prod.mk.inj hpair
  refine ⟨s, hs, ?_⟩
  rw [hclass, hsuccess]
  rfl

theorem classifiesErrors_iff_unlocated : ∃ s, Step .linux Sys.initial unlocatedInit s ∧
    (ClassifiesErrors s.core ↔
      ¬Reaches (Step .linux) (fun t c => ¬Fills .linux t c) Sys.initial s) := by
  obtain ⟨s, hs, -⟩ := exists_after_unlocatedInit
  exact ⟨s, hs, classifiesErrors_iff (.tail .refl trivial hs)⟩

/-- The failed load is stored as `MPI_SUCCESS`. -/
theorem not_classifiesErrors_unlocated : ¬∀ s,
    Reaches (Step .linux) (fun _ _ => True) Sys.initial s → ClassifiesErrors s.core := by
  obtain ⟨s, hs, hclass⟩ := exists_after_unlocatedInit
  intro h
  obtain ⟨errorClass, hstored, hne⟩ := h s (.tail .refl trivial hs) unimpiErrBackendLoad (by decide)
  rw [hclass] at hstored
  exact hne (Option.some.inj (Prod.mk.inj hstored).2).symm

end UniMPI
