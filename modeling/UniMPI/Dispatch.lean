import UniMPI.Lifecycle

/-!
# Dispatch through the lifecycle members

`initialize_backend`, `unimpi_init_with` and `unimpi_finalize` call the backend
through `unimpi.init`, `unimpi.init_thread` and `unimpi.finalize` without looking
at the member. A failed `MPI_Init` clears the table, but not the flag that says it
is filled when the tools interface keeps the library loaded, and a direct
initialisation that fails does not clear the flag either.

`KeepsDispatch` is the condition on a call under which the members stay usable.
`dispatchSafe_iff` shows it exact: along the calls that meet it every dispatch is
safe, and the first one that does not leaves a state in which `unimpi_init` goes
through a null member or into a closed library.
-/

namespace UniMPI

open Runs

/-- No call goes through a null or unloaded member of `unimpi`. -/
def DispatchSafe (p : Platform) (st : State) : Prop :=
  ∀ op env slot, faultOf (exec p op env st) ≠ some (.null slot) ∧
    faultOf (exec p op env st) ≠ some (.closed slot)

/-- While a library is loaded, `MPI_Init` does not fail, and a direct initialisation whose fill
fails has opened a library that is open anyway. -/
def KeepsDispatch (p : Platform) (s : Sys) (c : Call) : Prop :=
  s.core.gBackendLoaded = true → checkCanInitialize s.core = .ok →
    ∀ path, c.op.path p c.env = some path →
      if c.op.reuses then c.env.mpiInit = 0
      else match loadOutcome p c.env path s.core with
        | .filled _ _ => c.env.mpiInit = 0
        | .unfilled L => s.core.linker.IsOpen L.handle
        | _ => True

/-! ## Usable members -/

/-- A member is bound to a function of an open library. -/
def Bound (st : State) (slot : Slot) : Prop :=
  ∃ lib addr, st.tables.unimpi slot = .native lib addr ∧ st.linker.IsOpen lib

/-- The members through which the lifecycle functions call. -/
structure Usable (st : State) : Prop where
  init : Bound st .init
  finalize : Bound st .finalize
  initThread : st.tables.unimpi .initThread = .null ∨ Bound st .initThread

theorem Bound.callSlot {st : State} {slot : Slot} (h : Bound st slot) :
    callSlot st slot = .ok () := by
  obtain ⟨lib, addr, heq, hopen⟩ := h
  simp [UniMPI.callSlot, Tables.target, heq, hopen]

theorem Usable.callSlot_initSlot {st : State} (h : Usable st) (threadMode : Bool) :
    callSlot st (initSlot threadMode st) = .ok () := by
  unfold initSlot
  split_ifs with hthread
  · rcases h.initThread with hnull | hbound
    · simp [hnull] at hthread
    · exact hbound.callSlot
  · exact h.init.callSlot

theorem Bound.mono {st st' : State} {slot : Slot} (h : Bound st slot)
    (ht : st'.tables.unimpi slot = st.tables.unimpi slot)
    (hk : ∀ lib, st.linker.IsOpen lib → st'.linker.IsOpen lib) : Bound st' slot := by
  obtain ⟨lib, addr, heq, hopen⟩ := h
  exact ⟨lib, addr, ht.trans heq, hk lib hopen⟩

/-- Usable members stay usable while the table is left alone and no library is closed. -/
theorem Usable.mono {st st' : State} (h : Usable st) (ht : st'.tables.unimpi = st.tables.unimpi)
    (hk : ∀ lib, st.linker.IsOpen lib → st'.linker.IsOpen lib) : Usable st' := by
  refine ⟨h.init.mono (congrFun ht _) hk, h.finalize.mono (congrFun ht _) hk, ?_⟩
  rcases h.initThread with hnull | hbound
  · exact Or.inl ((congrFun ht _).trans hnull)
  · exact Or.inr (hbound.mono (congrFun ht _) hk)

theorem bound_of_bind {st : State} {slot : Slot} {L : Library}
    (h : st.tables.unimpi slot = L.bind slot.symbol) (he : L.exports slot.symbol = true)
    (ho : st.linker.IsOpen L.handle) : Bound st slot :=
  ⟨L.handle, L.dlsym slot.symbol, h.trans (L.bind_of_exports he), ho⟩

/-- The lifecycle members are usable when they are bound to an open library with the core
symbols. -/
theorem usable_of_bind {st : State} {L : Library} (hcore : validateCore L = true)
    (h : ∀ slot, slot = .init ∨ slot = .finalize ∨ slot = .initThread →
      st.tables.unimpi slot = L.bind slot.symbol)
    (ho : st.linker.IsOpen L.handle) : Usable st := by
  obtain ⟨hinit, hfinalize⟩ := exports_of_validateCore hcore
  refine ⟨bound_of_bind (h _ (by simp)) hinit ho, bound_of_bind (h _ (by simp)) hfinalize ho, ?_⟩
  have hthread := h .initThread (by simp)
  cases he : L.exports "MPI_Init_thread" with
  | false => exact Or.inl (hthread.trans ((L.bind_eq_null_iff _).2 he))
  | true => exact Or.inr (bound_of_bind hthread he ho)

/-- A filled library is usable. -/
theorem usable_of_filled {p : Platform} {env : Env} {path : CString} {st : State} {L : Library}
    {t : Tables} (hb : st.linker.Balanced) (ho : loadOutcome p env path st = .filled L t) :
    Usable ((LoadOutcome.filled L t).apply p path st) := by
  obtain ⟨-, hcore, -, hfill⟩ := loaderLoad_of_filled ho
  refine usable_of_bind hcore ?_ (Linker.isOpen_openLib_self (hb L.handle))
  rintro slot (rfl | rfl | rfl) <;> exact fill_native hfill rfl

/-- What a failed Open MPI fill leaves is usable if its library is open. -/
theorem usable_of_unfilled {p : Platform} {env : Env} {path : CString} {st : State} {L : Library}
    (ho : loadOutcome p env path st = .unfilled L) (hopen : st.linker.IsOpen L.handle) :
    Usable ((LoadOutcome.unfilled L).apply p path st) := by
  refine usable_of_bind (fill_of_unfilled ho).1 ?_
    ((Linker.isOpen_openLib_closeLib _ _ _).2 hopen)
  rintro slot (rfl | rfl | rfl) <;> rfl

/-- A failed direct initialisation over a loaded library keeps the members usable, unless the fill
fails with a library that is not open. -/
theorem usable_of_failed {p : Platform} {env : Env} {path : CString} {st : State} (h : Usable st)
    (ho : (loadOutcome p env path st).code ≠ .ok)
    (hcond : match loadOutcome p env path st with
      | .filled _ _ => env.mpiInit = 0
      | .unfilled L => st.linker.IsOpen L.handle
      | _ => True) : Usable ((loadOutcome p env path st).apply p path st) := by
  have hreopen : ∀ k lib, st.linker.IsOpen lib → ((st.linker.openLib k).closeLib k).IsOpen lib :=
    fun k lib => (Linker.isOpen_openLib_closeLib _ _ _).2
  cases hout : loadOutcome p env path st with
  | notLoaded ret => exact h.mono rfl fun _ => id
  | missingCore L => exact h.mono rfl (hreopen L.handle)
  | refused L ret => exact h.mono rfl (hreopen L.handle)
  | unfilled L =>
    rw [hout] at hcond
    exact usable_of_unfilled hout hcond
  | filled L t =>
    rw [hout] at ho
    exact absurd rfl ho

theorem Ready.usable {p : Platform} {env : Env} {path : CString} {st st' : State} {r : Bool}
    (h : Ready p env path st r st') (hb : st.linker.Balanced)
    (hu : st.gBackendLoaded = true → Usable st) : Usable st' := by
  cases h with
  | already hl => exact hu hl
  | fresh hl ho => exact (usable_of_filled hb ho).mono rfl fun _ => id
  | direct ho => exact usable_of_filled hb ho

/-- The members are usable when a lifecycle function may call through them. -/
def UsableWhileLoaded (st : State) : Prop :=
  st.gBackendLoaded = true → st.gState = .never ∨ st.gState = .initFailed ∨ st.gState = .active →
    Usable st

theorem UsableWhileLoaded.of_check {st : State} (h : UsableWhileLoaded st)
    (hcheck : checkCanInitialize st = .ok) (hl : st.gBackendLoaded = true) : Usable st := by
  refine h hl ?_
  cases hs : st.gState <;> simp [checkCanInitialize, hs] at hcheck ⊢

/-! ## Safety -/

theorem callMtSlot_fault {st : State} {s : MtSlot} {f : Fault} (h : callMtSlot st s = .error f) :
    f = .mtNull s ∨ f = .mtClosed s := by
  unfold callMtSlot at h
  split at h
  · cases h
    exact Or.inl rfl
  · split_ifs at h
    cases h
    exact Or.inr rfl
  · cases h

theorem initializeBackend_faultOf {p : Platform} {env : Env} {st : State} {threadMode : Bool}
    (hb : st.linker.Balanced) (hu : st.gBackendLoaded = true → Usable st) :
    faultOf (initializeBackend p env threadMode st) = none := by
  unfold initializeBackend
  rcases ensureLoaded_cases p env st with ⟨st', hready⟩ | ⟨hl, ho⟩
  · have husable : Usable { st' with gRefcount := st'.gRefcount + 1 } :=
      (hready.usable hb hu).mono rfl fun _ => id
    simp [ensureLoaded_of_ready hready, husable.callSlot_initSlot]
  · simp [ensureLoaded_of_failed hl ho, ho]

section FaultOf

variable {p : Platform} {env : Env} {st : State}

theorem init_faultOf (hb : st.linker.Balanced)
    (hu : checkCanInitialize st = .ok → st.gBackendLoaded = true → Usable st) :
    faultOf (init p env st) = none := by
  unfold init
  dsimp only
  split_ifs with hcheck
  · rfl
  · exact initializeBackend_faultOf hb fun hl =>
      (hu (not_not.1 hcheck) hl).mono rfl fun _ => id

theorem initThread_faultOf {required : Int} {provided : Bool} (hb : st.linker.Balanced)
    (hu : checkCanInitialize st = .ok → st.gBackendLoaded = true → Usable st) :
    faultOf (initThread p env required provided st) = none := by
  unfold initThread
  dsimp only
  split_ifs with _ _ hcheck
  · rfl
  · rfl
  · rfl
  · exact initializeBackend_faultOf hb fun hl =>
      (hu (not_not.1 hcheck) hl).mono rfl fun _ => id

/-- A direct initialisation calls only through members it has just filled. -/
theorem initWith_faultOf {name : Option CString} (hb : st.linker.Balanced) :
    faultOf (initWith p env name st) = none := by
  cases name with
  | none => rfl
  | some name =>
    unfold initWith
    by_cases hcheck : checkCanInitialize st = .ok
    · simp only [hcheck, ne_eq, not_true_eq_false, if_false, loadBackend_eq]
      by_cases ho : (loadOutcome p env (libraryFor name)
          { st with gState := .initializing }).code = .ok
      · obtain ⟨L, t, hfilled⟩ := (loadOutcome_code_eq_ok_iff _ _ _ _).1 ho
        have husable := usable_of_filled (by exact hb) hfilled
        rw [hfilled]
        simp only [LoadOutcome.code, not_true_eq_false, if_false, husable.init.callSlot]
        split_ifs <;> rfl
      · simp [ho]
    · simp [hcheck]

theorem finalize_faultOf (hu : st.gState = .active → Usable st) :
    faultOf (finalize env st) = none := by
  unfold finalize
  split
  iterate 6 rfl
  rename_i hs
  have husable : Usable { st with gState := .finalizing } := (hu hs).mono rfl fun _ => id
  simp [husable.finalize.callSlot]

theorem mpitInitThread_faultOf {slot : Slot} :
    faultOf (mpitInitThread p env st) ≠ some (.null slot) ∧
      faultOf (mpitInitThread p env st) ≠ some (.closed slot) := by
  unfold mpitInitThread
  dsimp only
  split_ifs with hret
  · simp
  · split
    · rename_i f hcall
      rcases callMtSlot_fault hcall with rfl | rfl <;> simp [faultOf]
    · simp

theorem mpitFinalize_faultOf {slot : Slot} :
    faultOf (mpitFinalize env st) ≠ some (.null slot) ∧
      faultOf (mpitFinalize env st) ≠ some (.closed slot) := by
  unfold mpitFinalize
  split
  · rename_i f hcall
    rcases callMtSlot_fault hcall with rfl | rfl <;> simp [faultOf]
  · simp

end FaultOf

/-- No call through `unimpi` faults while the members are usable. -/
theorem dispatchSafe_of_usable {p : Platform} {s : Sys} (hinv : Inv s)
    (hu : UsableWhileLoaded s.core) : DispatchSafe p s.core := by
  have hactive : s.core.gState = .active → Usable s.core := fun hs =>
    hu (hinv.loaded_of_active hs) (Or.inr (Or.inr hs))
  intro op env slot
  cases op with
  | init => simp [exec, init_faultOf hinv.balanced hu.of_check]
  | initThread required provided => simp [exec, initThread_faultOf hinv.balanced hu.of_check]
  | initWith name => simp [exec, initWith_faultOf hinv.balanced]
  | finalize => simp [exec, finalize_faultOf hactive]
  | mpitInitThread => exact mpitInitThread_faultOf
  | mpitFinalize => exact mpitFinalize_faultOf

/-! ## The members stay usable -/

theorem UsableWhileLoaded.step {p : Platform} {s s' : Sys} {c : Call} (hC : KeepsDispatch p s c)
    (h : Step p s c s') (hinv : Inv s) (hu : UsableWhileLoaded s.core) :
    UsableWhileLoaded s'.core := by
  obtain ⟨op, env⟩ := c
  obtain ⟨core', n⟩ := s'
  obtain ⟨-, ⟨ret, hexec⟩, -⟩ := h.cases
  dsimp only at hexec ⊢
  intro hl' hstate
  cases exec_effect hexec with
  | refused hret hwhy => exact hu hl' hstate
  | loadFailed hcheck hpath hl ho =>
    have hl0 : s.core.gBackendLoaded = true := by simpa using hl'
    have husable := hu.of_check hcheck hl0
    have hcond := hC hl0 hcheck _ hpath
    have hdirect : op.reuses ≠ true := fun hr => absurd hl0 (ne_true_of_eq_false (hl hr))
    rw [if_neg hdirect] at hcond
    exact (usable_of_failed husable ho hcond).mono rfl fun _ => id
  | initFailed hcheck hpath hready hret =>
    have hcond := fun hl0 => hC hl0 hcheck _ hpath
    rcases initFailedState_cases hinv hready with ⟨hr, hl0, heq⟩ | ⟨L, t, ho, hl, heq⟩
    · have := hcond hl0
      rw [if_pos hr] at this
      exact absurd this hret
    · rw [heq] at hl'
      have := hcond hl'
      by_cases hr : op.reuses = true
      · exact absurd hl' (ne_true_of_eq_false (hl hr))
      · rw [if_neg hr, ho] at this
        exact absurd this hret
  | started level hcheck hpath hready hret hlevel =>
    exact (hready.usable hinv.balanced (hu.of_check hcheck)).mono rfl fun _ => id
  | finalized hactive hcall =>
    simp only [finalizedState] at hstate
    split_ifs at hstate <;> simp at hstate
  | mpitLoadFailed hl ho =>
    rw [LoadOutcome.apply_gBackendLoaded, hl] at hl'
    cases hl'
  | mpitStarted hready hcall =>
    simp only [hready.gState] at hstate
    exact (hready.usable hinv.balanced fun hl0 => hu hl0 hstate).mono rfl fun _ => id
  | mpitFinalized hcall =>
    by_cases hheld : 1 < s.core.gRefcount ∨ s.core.gHandle = none
    · rw [releaseRef_of_held (by exact hheld)] at hl' hstate ⊢
      exact (hu hl' hstate).mono rfl fun _ => id
    · obtain ⟨hr, hsome⟩ := not_or.1 hheld
      obtain ⟨L, hL⟩ := Option.ne_none_iff_exists'.1 hsome
      rw [@releaseRef_of_last _ L (by simp only; omega) (by exact hL)] at hl'
      cases hl'

theorem UsableWhileLoaded.of_reaches {p : Platform} {s : Sys}
    (h : Reaches (Step p) (KeepsDispatch p) Sys.initial s) : UsableWhileLoaded s.core :=
  h.invariant_with (P := fun s => UsableWhileLoaded s.core) (fun _ ht => Inv.of_reaches ht)
    (fun _ _ _ hinv hC hstep hu => hu.step hC hstep hinv) nofun

/-! ## The condition is necessary -/

/-- With a library loaded, `unimpi_init` calls through the member as it is. -/
theorem init_of_loaded {p : Platform} {st : State} (env : Env) (hl : st.gBackendLoaded = true)
    (hcheck : checkCanInitialize st = .ok) :
    init p env st = match callSlot st .init with
      | .error f => .error f
      | .ok () => .ok (finishInit env none
          { st with gState := .initializing, gRefcount := st.gRefcount + 1 }) := by
  have hloaded : ensureLoaded p env { st with gState := .initializing } =
      (.ok, { st with gState := .initializing }) := if_pos hl
  simp only [init, hcheck, ne_eq, not_true_eq_false, if_false, initializeBackend, hloaded]
  rfl

theorem not_dispatchSafe_of_init {p : Platform} {st : State} (env : Env)
    (hl : st.gBackendLoaded = true) (hcheck : checkCanInitialize st = .ok)
    (hcall : faultOf (callSlot st .init) = some (.null .init) ∨
      faultOf (callSlot st .init) = some (.closed .init)) : ¬DispatchSafe p st := by
  have hexec : faultOf (exec p .init env st) = faultOf (callSlot st .init) := by
    rw [exec, init_of_loaded env hl hcheck]
    cases callSlot st .init <;> rfl
  intro hsafe
  obtain ⟨hnull, hclosed⟩ := hsafe .init env .init
  rw [hexec] at hnull hclosed
  rcases hcall with hcall | hcall
  · exact hnull hcall
  · exact hclosed hcall

/-- A cleared table has no `init`. -/
theorem callSlot_cleanup {st : State} (h : st.tables.unimpi = fun _ => .null) :
    faultOf (callSlot st .init) = some (.null .init) := by
  simp [callSlot, Tables.target, h, faultOf]

/-- A failed Open MPI fill leaves `init` bound to a library that is closed again. -/
theorem callSlot_unfilled {p : Platform} {env : Env} {path : CString} {st : State} {L : Library}
    (ho : loadOutcome p env path st = .unfilled L) (hclosed : ¬st.linker.IsOpen L.handle) :
    faultOf (callSlot ((LoadOutcome.unfilled L).apply p path st) .init) = some (.closed .init) := by
  have hinit : ((LoadOutcome.unfilled L).apply p path st).tables.unimpi .init =
      .native L.handle (L.dlsym "MPI_Init") :=
    L.bind_of_exports (exports_of_validateCore (fill_of_unfilled ho).1).1
  have hstill : ¬((LoadOutcome.unfilled L).apply p path st).linker.IsOpen L.handle :=
    fun hopen => hclosed ((Linker.isOpen_openLib_closeLib _ _ _).1 hopen)
  simp [callSlot, Tables.target, hinit, hstill, faultOf]

theorem keepsDispatch_of_dispatchSafe {p : Platform} {s s' : Sys} {c : Call} (hinv : Inv s)
    (h : Step p s c s') (hsafe : DispatchSafe p s'.core) : KeepsDispatch p s c := by
  obtain ⟨op, env⟩ := c
  obtain ⟨core', n⟩ := s'
  obtain ⟨-, ⟨ret, hexec⟩, -⟩ := h.cases
  dsimp only at hexec hsafe
  intro hl hcheck path hpath
  dsimp only at hpath ⊢
  cases exec_effect hexec with
  | refused hret hwhy => exact absurd hwhy (not_refused hcheck hpath)
  | loadFailed hcheck' hpath' hl' ho =>
    cases hpath.symm.trans hpath'
    rw [if_neg fun hr => absurd hl (ne_true_of_eq_false (hl' hr))]
    cases hout : loadOutcome p env path s.core with
    | filled L t =>
      rw [hout] at ho
      exact absurd rfl ho
    | unfilled L =>
      by_contra hclosed
      rw [hout] at hsafe
      exact absurd hsafe
        (not_dispatchSafe_of_init env hl rfl (Or.inr (callSlot_unfilled hout hclosed)))
    | notLoaded ret => trivial
    | missingCore L => trivial
    | refused L ret => trivial
  | initFailed hcheck' hpath' hready hret =>
    refine absurd hsafe ?_
    rcases initFailedState_cases hinv hready with ⟨-, -, heq⟩ | ⟨L, t, -, -, heq⟩
    · rw [heq]
      exact not_dispatchSafe_of_init env hl rfl (Or.inl (callSlot_cleanup rfl))
    · rw [heq]
      exact not_dispatchSafe_of_init env hl rfl (Or.inl (callSlot_cleanup rfl))
  | started level hcheck' hpath' hready hret hlevel =>
    cases hpath.symm.trans hpath'
    split_ifs with hr
    · exact hret
    · rw [Bool.eq_false_iff.2 hr] at hready
      cases hready with
      | direct ho =>
        rw [ho]
        exact hret
  | finalized | mpitLoadFailed | mpitStarted | mpitFinalized => cases hpath

/-! ## Results -/

/-- Along the calls that meet the condition every dispatch is safe, and a call keeps the next
dispatch safe exactly if it meets the condition. -/
theorem dispatchSafe_iff {p : Platform} {s : Sys}
    (h : Reaches (Step p) (KeepsDispatch p) Sys.initial s) :
    DispatchSafe p s.core ∧
      ∀ c s', Step p s c s' → (DispatchSafe p s'.core ↔ KeepsDispatch p s c) := by
  have hinv := Inv.of_reaches h
  refine ⟨dispatchSafe_of_usable hinv (UsableWhileLoaded.of_reaches h), fun c s' hstep => ?_⟩
  refine ⟨keepsDispatch_of_dispatchSafe hinv hstep, fun hC => ?_⟩
  exact dispatchSafe_of_usable (hinv.step hstep) (UsableWhileLoaded.of_reaches (h.tail hC hstep))

/-- The tools interface loads a library. -/
def toolsCall : Call :=
  ⟨.mpitInitThread, .offering (some mpichLibrary) 0⟩

theorem dispatchSafe_iff_tools : ∃ s, Step .linux Sys.initial toolsCall s ∧
    DispatchSafe .linux s.core ∧ s.core.gBackendLoaded = true := by
  have hrun : ((Sys.initial.after .linux toolsCall).map fun s => s.core.gBackendLoaded) =
      some true := by decide +kernel
  obtain ⟨s, hs, hl⟩ := Option.map_eq_some_iff.1 hrun
  exact ⟨s, hs, (dispatchSafe_iff (.tail .refl nofun hs)).1, hl⟩

/-- The tools interface loads a library, `MPI_Init` fails, and the retry goes through a null
member. -/
theorem not_dispatchSafe_retry : ¬∀ s,
    Reaches (Step .linux) (fun _ _ => True) Sys.initial s → DispatchSafe .linux s.core := by
  have hrun : ((Sys.initial.afterAll .linux [toolsCall, ⟨.init, .offering none 1⟩]).map fun s =>
      faultOf (exec .linux .init (.offering none 0) s.core)) = some (some (.null .init)) := by
    decide +kernel
  obtain ⟨s, hs, hfault⟩ := Option.map_eq_some_iff.1 hrun
  intro h
  exact (h s (reaches_afterAll .refl (fun _ _ _ => trivial) hs) .init (.offering none 0) .init).1
    hfault

end UniMPI
