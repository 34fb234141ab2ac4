import UniMPI.Dispatch

/-!
# Reference counting

Two interfaces share one library. In the runs without `initWith` the count is
exact (`refcount_exact`): it is the number of interfaces that hold the library,
the handle is open exactly while the count is positive, and every opening has
been closed or is the one the handle still stands for. While the tools interface
holds a reference, the MPI interface can neither close the library nor change the
tools table.

`Accounted` is what `Inv` lacks for this: a loaded library has a handle, and the
linker's account is balanced up to that handle. A direct initialisation breaks
both if a library is loaded, since it opens one without asking; `StartsFresh` is
the condition that it does not. `Unclosed` says the same of the members: while a
library is loaded, what calls go through is null or in an open library, so that a
call of these runs faults at a null member or not at all.
-/

namespace UniMPI

open Runs

/-- A loaded library has a handle, and only that handle's opening has not been closed. -/
structure Accounted (st : State) : Prop where
  held : st.gBackendLoaded = true → st.gHandle ≠ none
  account : st.linker.opened.Perm ((st.gHandle.map Library.handle).toList ++ st.linker.closed)

theorem Accounted.initial : Accounted State.initial :=
  ⟨nofun, .refl _⟩

section Accounted

variable {p : Platform} {env : Env} {path : CString} {st st' : State}

theorem Accounted.of_eq (h : Accounted st) (hl : st'.gBackendLoaded = st.gBackendLoaded)
    (hL : st'.gHandle = st.gHandle) (hk : st'.linker = st.linker) : Accounted st' := by
  refine ⟨?_, ?_⟩
  · rw [hl, hL]
    exact h.held
  · rw [hL, hk]
    exact h.account

theorem Accounted.releaseRef (h : Accounted st) : Accounted (releaseRef st) := by
  by_cases hheld : 1 < st.gRefcount ∨ st.gHandle = none
  · rw [releaseRef_of_held hheld]
    exact h.of_eq rfl rfl rfl
  · obtain ⟨hr, hsome⟩ := not_or.1 hheld
    obtain ⟨L, hL⟩ := Option.ne_none_iff_exists'.1 hsome
    rw [releaseRef_of_last (by omega) hL]
    have haccount := h.account
    rw [hL] at haccount
    exact ⟨nofun, haccount⟩

/-- Loading that fails while nothing is loaded. -/
theorem Accounted.loadFailed (h : Accounted st) (hinv : Held st) (hl : st.gBackendLoaded = false)
    {o : LoadOutcome} (ho : o.code ≠ .ok) : Accounted (o.apply p path st) := by
  have hnone := hinv.unheld (hinv.unloaded hl)
  have haccount := h.account
  rw [hnone] at haccount
  refine ⟨?_, ?_⟩
  · rw [o.apply_gBackendLoaded, hl]
    exact nofun
  · rw [o.apply_gHandle_of_failed ho]
    rcases o.apply_linker_of_failed ho with heq | ⟨k, heq⟩
    · rw [heq]
      exact haccount
    · rw [heq]
      exact haccount.cons k

theorem Accounted.abandoned (h : Accounted st) (hinv : Held st) (hl : st.gBackendLoaded = false)
    (L : Library) (t : Tables) : Accounted (abandonedState p path st L t) := by
  have hnone := hinv.unheld (hinv.unloaded hl)
  have haccount := h.account
  rw [hnone] at haccount
  refine ⟨fun hl' => ?_, haccount.cons L.handle⟩
  exact absurd hl' (ne_true_of_eq_false hl)

theorem Accounted.ready {r : Bool} (h : Accounted st) (hinv : Held st)
    (hready : Ready p env path st r st') (hl : r = false → st.gBackendLoaded = false) :
    Accounted { st' with gBackendLoaded := true } := by
  have hunloaded : ∀ L : Library, st.gBackendLoaded = false →
      (st.linker.openLib L.handle).opened.Perm ([L.handle] ++ st.linker.closed) := by
    intro L hl
    have haccount := h.account
    rw [hinv.unheld (hinv.unloaded hl)] at haccount
    exact haccount.cons L.handle
  cases hready with
  | already hl' => exact h.of_eq hl'.symm rfl rfl
  | fresh hl' ho => exact ⟨fun _ => nofun, hunloaded _ hl'⟩
  | direct ho => exact ⟨fun _ => nofun, hunloaded _ (hl rfl)⟩

end Accounted

/-! ## Runs that initialise fresh -/

/-- A direct initialisation is refused or finds no library loaded. -/
def Fresh (st : State) : Prop :=
  checkCanInitialize st ≠ .ok ∨ st.gBackendLoaded = false

/-- The call is no direct initialisation over a loaded library. -/
def StartsFresh (s : Sys) (c : Call) : Prop :=
  ∀ b, c.op = .initWith (some b) → Fresh s.core

/-- The calls other than `initWith`. -/
def Op.Reusing (op : Op) : Prop :=
  ∀ name, op ≠ .initWith name

theorem Op.Reusing.startsFresh {s : Sys} {c : Call} (h : c.op.Reusing) : StartsFresh s c :=
  fun b hb => absurd hb (h (some b))

/-- An initialisation that goes ahead either reuses a loaded library or finds none. -/
theorem StartsFresh.unloaded {p : Platform} {s : Sys} {op : Op} {env : Env} {path : CString}
    (h : StartsFresh s ⟨op, env⟩) (hcheck : checkCanInitialize s.core = .ok)
    (hpath : op.path p env = some path) (hr : op.reuses = false) :
    s.core.gBackendLoaded = false := by
  cases op with
  | initWith name =>
    cases name with
    | none => cases hpath
    | some b => exact (h b rfl).resolve_left (not_not.2 hcheck)
  | _ => cases hr

/-- No library is loaded when an initialisation opens one. -/
theorem StartsFresh.unloaded_of_opened {p : Platform} {s : Sys} {op : Op} {env : Env}
    {path : CString} (h : StartsFresh s ⟨op, env⟩) (hcheck : checkCanInitialize s.core = .ok)
    (hpath : op.path p env = some path) (hl : op.reuses = true → s.core.gBackendLoaded = false) :
    s.core.gBackendLoaded = false := by
  by_cases hr : op.reuses = true
  · exact hl hr
  · exact h.unloaded hcheck hpath (Bool.eq_false_iff.2 hr)

theorem Accounted.step {p : Platform} {s s' : Sys} {c : Call} (hC : StartsFresh s c)
    (h : Step p s c s') (hinv : Inv s) (hacc : Accounted s.core) : Accounted s'.core := by
  obtain ⟨op, env⟩ := c
  obtain ⟨core', n⟩ := s'
  obtain ⟨-, ⟨ret, hexec⟩, -⟩ := h.cases
  dsimp only at hexec ⊢
  cases exec_effect hexec with
  | refused hret hwhy => exact hacc
  | loadFailed hcheck hpath hl ho =>
    have hl' := hC.unloaded_of_opened hcheck hpath hl
    exact (hacc.loadFailed hinv.toHeld hl' ho).of_eq rfl rfl rfl
  | initFailed hcheck hpath hready hret =>
    rcases initFailedState_cases hinv hready with ⟨-, -, heq⟩ | ⟨L, t, -, hl, heq⟩
    · rw [heq]
      exact hacc.of_eq rfl rfl rfl
    · have hl' := hC.unloaded_of_opened hcheck hpath hl
      rw [heq]
      exact hacc.abandoned hinv.toHeld hl' L t
  | started level hcheck hpath hready hret hlevel =>
    have hacc' := hacc.ready hinv.toHeld hready (hC.unloaded hcheck hpath)
    exact hacc'.of_eq rfl rfl rfl
  | finalized hactive hcall =>
    have hclean : Accounted (cleanup s.core) := hacc.of_eq rfl rfl rfl
    exact hclean.releaseRef.of_eq rfl rfl rfl
  | mpitLoadFailed hl ho => exact hacc.loadFailed hinv.toHeld hl ho
  | mpitStarted hready hcall =>
    have hacc' := hacc.ready hinv.toHeld hready nofun
    exact hacc'.of_eq hready.loaded rfl rfl
  | mpitFinalized hcall =>
    have hsame : Accounted { s.core with gMpitInited := false } := hacc.of_eq rfl rfl rfl
    exact hsame.releaseRef

theorem Accounted.of_reaches {p : Platform} {s : Sys}
    (h : Reaches (Step p) StartsFresh Sys.initial s) : Accounted s.core :=
  h.invariant_with (P := fun s => Accounted s.core) (fun _ ht => Inv.of_reaches ht)
    (fun _ _ _ hinv hC hstep hacc => hacc.step hC hstep hinv) Accounted.initial

/-- In these runs a library is loaded exactly while it is referenced. -/
theorem loaded_iff_refcount_pos {s : Sys} (hinv : Inv s) (hacc : Accounted s.core) :
    s.core.gBackendLoaded = true ↔ 0 < s.core.gRefcount := by
  have hpos := hinv.refcount_nonneg
  constructor
  · intro hl
    have hne : s.core.gRefcount ≠ 0 := fun hzero => hacc.held hl (hinv.unheld hzero)
    omega
  · intro hlt
    by_contra hl
    have := hinv.unloaded (Bool.eq_false_iff.2 hl)
    omega

/-- While the tools interface holds a reference, finalizing MPI or failing to initialise it keeps
the library and the tools table. -/
theorem kept_of_unmatched {p : Platform} {s : Sys} (hinv : Inv s) (hacc : Accounted s.core)
    (hunmatched : 0 < s.unmatched) {op : Op} {env : Env} {ret : ReturnCode} {st' : State}
    (hexec : exec p op env s.core = .ok (ret, st'))
    (hop : op = .finalize ∨
      (op = .init ∨ ∃ required provided, op = .initThread required provided) ∧ ret ≠ .ok) :
    st'.linker.closed = s.core.linker.closed ∧ st'.gHandle = s.core.gHandle ∧
      st'.tables.unimpiMt = s.core.tables.unimpiMt := by
  have hcount := hinv.refcount
  have hloaded : s.core.gBackendLoaded = true := by
    refine (loaded_iff_refcount_pos hinv hacc).2 ?_
    split_ifs at hcount <;> omega
  have hreuse : ∀ {r : Bool}, r = op.reuses → (r = true → s.core.gBackendLoaded = false) →
      False := by
    rintro r rfl hr
    have : op.reuses = true := by
      rcases hop with rfl | ⟨rfl | ⟨required, provided, rfl⟩, -⟩ <;> rfl
    rw [hr this] at hloaded
    cases hloaded
  cases exec_effect hexec with
  | refused hret hwhy => exact ⟨rfl, rfl, rfl⟩
  | loadFailed hcheck hpath hl ho => exact (hreuse rfl hl).elim
  | initFailed hcheck hpath hready hret =>
    rcases initFailedState_cases hinv hready with ⟨-, -, heq⟩ | ⟨L, t, -, hl, -⟩
    · rw [heq]
      exact ⟨rfl, rfl, rfl⟩
    · exact (hreuse rfl hl).elim
  | started level hcheck hpath hready hret hlevel =>
    rcases hop with rfl | ⟨-, hne⟩
    · cases hpath
    · exact absurd rfl hne
  | finalized hactive hcall =>
    simp only [hactive, if_true] at hcount
    have hmore : 1 < (cleanup s.core).gRefcount := by
      simp only [cleanup]
      omega
    simp only [finalizedState, clearBackendIdentity, releaseRef_of_held (Or.inl hmore)]
    exact ⟨rfl, rfl, rfl⟩
  | mpitLoadFailed hl ho => simp at hop
  | mpitStarted hready hcall => simp at hop
  | mpitFinalized hcall => simp at hop

/-! ## Faults of runs that initialise fresh -/

/-- The fault is a call through a null member. -/
def Fault.IsNull : Fault → Prop
  | null _ | mtNull _ => True
  | closed _ | mtClosed _ => False

/-- The members that are bound without an adapter, and those of the tools table, are null or
functions of open libraries. -/
structure Unclosed (st : State) : Prop where
  main : ∀ s : Slot, s.kind = .native → st.tables.unimpi s = .null ∨ Bound st s
  tools : ∀ s, st.tables.unimpiMt s = .null ∨
    ∃ lib addr, st.tables.unimpiMt s = .native lib addr ∧ st.linker.IsOpen lib

section Unclosed

variable {p : Platform} {env : Env} {path : CString} {st st' : State}

/-- Members may be cleared. -/
theorem Unclosed.of_eq (h : Unclosed st)
    (hu : ∀ s, st'.tables.unimpi s = .null ∨ st'.tables.unimpi s = st.tables.unimpi s)
    (hmt : st'.tables.unimpiMt = st.tables.unimpiMt) (hk : st'.linker = st.linker) :
    Unclosed st' := by
  refine ⟨fun s hs => ?_, ?_⟩
  · rcases hu s with hnull | hsame
    · exact Or.inl hnull
    · rcases h.main s hs with hnull | hbound
      · exact Or.inl (hsame.trans hnull)
      · exact Or.inr (hbound.mono hsame fun lib hopen => by rwa [hk])
  · rw [hmt, hk]
    exact h.tools

theorem unclosed_of_filled {L : Library} {t : Tables} (hb : st.linker.Balanced)
    (ho : loadOutcome p env path st = .filled L t) :
    Unclosed ((LoadOutcome.filled L t).apply p path st) := by
  have hfill := (loaderLoad_of_filled ho).2.2.2
  have hopen := Linker.isOpen_openLib_self (hb L.handle)
  refine ⟨fun s hs => ?_, fun s => ?_⟩
  · have hbind := fill_native hfill hs
    cases he : L.exports s.symbol with
    | false => exact Or.inl (hbind.trans ((L.bind_eq_null_iff _).2 he))
    | true => exact Or.inr (bound_of_bind hbind he hopen)
  · have hbind := congrFun (fill_unimpiMt hfill) s
    cases he : L.exports s.symbol with
    | false => exact Or.inl (hbind.trans ((L.bind_eq_null_iff _).2 he))
    | true => exact Or.inr ⟨_, _, hbind.trans (L.bind_of_exports he), hopen⟩

theorem Unclosed.ready {r : Bool} (hready : Ready p env path st r st')
    (hb : st.linker.Balanced) (h : st.gBackendLoaded = true → Unclosed st) : Unclosed st' := by
  cases hready with
  | already hl => exact h hl
  | fresh hl ho => exact (unclosed_of_filled hb ho).of_eq (fun _ => Or.inr rfl) rfl rfl
  | direct ho => exact unclosed_of_filled hb ho

/-- Giving up a reference leaves the members alone, or nothing loaded. -/
theorem Unclosed.releaseRef (h : st.gBackendLoaded = true → Unclosed st)
    (hl : (releaseRef st).gBackendLoaded = true) : Unclosed (releaseRef st) := by
  by_cases hheld : 1 < st.gRefcount ∨ st.gHandle = none
  · rw [releaseRef_of_held hheld] at hl ⊢
    exact (h hl).of_eq (fun _ => Or.inr rfl) rfl rfl
  · obtain ⟨hr, hsome⟩ := not_or.1 hheld
    obtain ⟨L, hL⟩ := Option.ne_none_iff_exists'.1 hsome
    rw [releaseRef_of_last (by omega) hL] at hl
    cases hl

theorem Unclosed.callSlot_fault (h : Unclosed st) {s : Slot} (hs : s.kind = .native) {f : Fault}
    (hcall : callSlot st s = .error f) : f.IsNull := by
  rcases h.main s hs with hnull | hbound
  · simp only [callSlot, Tables.target, hnull] at hcall
    cases hcall
    trivial
  · rw [hbound.callSlot] at hcall
    cases hcall

theorem Unclosed.callMtSlot_fault (h : Unclosed st) {s : MtSlot} {f : Fault}
    (hcall : callMtSlot st s = .error f) : f.IsNull := by
  rcases h.tools s with hnull | ⟨lib, addr, hnative, hopen⟩
  · simp only [callMtSlot, hnull] at hcall
    cases hcall
    trivial
  · simp [callMtSlot, hnative, hopen] at hcall

theorem initSlot_kind (threadMode : Bool) (st : State) :
    (initSlot threadMode st).kind = .native := by
  unfold initSlot
  split_ifs <;> rfl

theorem initializeBackend_fault {threadMode : Bool} {f : Fault}
    (h : initializeBackend p env threadMode st = .error f) (hb : st.linker.Balanced)
    (hu : st.gBackendLoaded = true → Unclosed st) : f.IsNull := by
  unfold initializeBackend at h
  rcases ensureLoaded_cases p env st with ⟨st', hready⟩ | ⟨hl, ho⟩
  · have hunclosed : Unclosed { st' with gRefcount := st'.gRefcount + 1 } :=
      (Unclosed.ready hready hb hu).of_eq (fun _ => Or.inr rfl) rfl rfl
    simp only [ensureLoaded_of_ready hready, ne_eq, not_true_eq_false, if_false] at h
    split at h
    · rename_i f' hcall
      cases h
      exact hunclosed.callSlot_fault (initSlot_kind _ _) hcall
    · cases h
  · simp [ensureLoaded_of_failed hl ho, ho] at h

end Unclosed

/-- While the loaded members are unclosed, a call other than `initWith` faults at a null member or
not at all. -/
theorem isNull_of_fault {p : Platform} {s : Sys} {op : Op} {env : Env} {f : Fault} (hinv : Inv s)
    (hu : s.core.gBackendLoaded = true → Unclosed s.core) (hop : op.Reusing)
    (hbal : op = .mpitFinalize → s.core.gBackendLoaded = true)
    (h : exec p op env s.core = .error f) : f.IsNull := by
  have hstart : s.core.gBackendLoaded = true →
      Unclosed { s.core with gState := .initializing } := fun hl =>
    (hu hl).of_eq (fun _ => Or.inr rfl) rfl rfl
  cases op with
  | init =>
    simp only [exec, init] at h
    split_ifs at h
    exact initializeBackend_fault h hinv.balanced hstart
  | initThread required provided =>
    simp only [exec, initThread] at h
    split_ifs at h
    exact initializeBackend_fault h hinv.balanced hstart
  | initWith name => exact absurd rfl (hop name)
  | finalize =>
    simp only [exec, finalize] at h
    split at h
    iterate 6 cases h
    rename_i hs
    have hunclosed : Unclosed { s.core with gState := .finalizing } :=
      (hu (hinv.loaded_of_active hs)).of_eq (fun _ => Or.inr rfl) rfl rfl
    split at h
    · rename_i f' hcall
      cases h
      exact hunclosed.callSlot_fault rfl hcall
    · cases h
  | mpitInitThread =>
    simp only [exec, mpitInitThread] at h
    rcases ensureLoaded_cases p env s.core with ⟨st', hready⟩ | ⟨hl, ho⟩
    · have hunclosed : Unclosed { st' with gRefcount := st'.gRefcount + 1, gMpitInited := true } :=
        (Unclosed.ready hready hinv.balanced hu).of_eq (fun _ => Or.inr rfl) rfl rfl
      simp only [ensureLoaded_of_ready hready, ne_eq, not_true_eq_false, if_false] at h
      split at h
      · rename_i f' hcall
        cases h
        exact hunclosed.callMtSlot_fault hcall
      · cases h
    · simp [ensureLoaded_of_failed hl ho, ho] at h
  | mpitFinalize =>
    simp only [exec, mpitFinalize] at h
    split at h
    · rename_i f' hcall
      cases h
      exact (hu (hbal rfl)).callMtSlot_fault hcall
    · cases h

theorem Unclosed.step {p : Platform} {s s' : Sys} {c : Call} (hC : StartsFresh s c)
    (h : Step p s c s') (hinv : Inv s) (hu : s.core.gBackendLoaded = true → Unclosed s.core)
    (hl' : s'.core.gBackendLoaded = true) : Unclosed s'.core := by
  obtain ⟨op, env⟩ := c
  obtain ⟨core', n⟩ := s'
  obtain ⟨-, ⟨ret, hexec⟩, -⟩ := h.cases
  dsimp only at hexec hl' ⊢
  cases exec_effect hexec with
  | refused hret hwhy => exact hu hl'
  | loadFailed hcheck hpath hl ho =>
    have hunloaded := hC.unloaded_of_opened hcheck hpath hl
    simp [hunloaded] at hl'
  | initFailed hcheck hpath hready hret =>
    rcases initFailedState_cases hinv hready with ⟨-, hl, heq⟩ | ⟨L, t, -, hl, heq⟩
    · rw [heq]
      exact (hu hl).of_eq (fun _ => Or.inl rfl) rfl rfl
    · have hunloaded := hC.unloaded_of_opened hcheck hpath hl
      rw [heq] at hl'
      exact absurd hl' (ne_true_of_eq_false hunloaded)
  | started level hcheck hpath hready hret hlevel =>
    exact (Unclosed.ready hready hinv.balanced hu).of_eq (fun _ => Or.inr rfl) rfl rfl
  | finalized hactive hcall =>
    have hclean : (cleanup s.core).gBackendLoaded = true → Unclosed (cleanup s.core) := fun hl =>
      (hu hl).of_eq (fun _ => Or.inl rfl) rfl rfl
    exact (Unclosed.releaseRef hclean hl').of_eq (fun _ => Or.inr rfl) rfl rfl
  | mpitLoadFailed hl ho => simp [hl] at hl'
  | mpitStarted hready hcall =>
    exact (Unclosed.ready hready hinv.balanced hu).of_eq (fun _ => Or.inr rfl) rfl rfl
  | mpitFinalized hcall =>
    refine Unclosed.releaseRef (fun hl => ?_) hl'
    exact (hu hl).of_eq (fun _ => Or.inr rfl) rfl rfl

theorem Unclosed.of_reaches {p : Platform} {s : Sys}
    (h : Reaches (Step p) StartsFresh Sys.initial s) :
    s.core.gBackendLoaded = true → Unclosed s.core :=
  h.invariant_with (P := fun s => s.core.gBackendLoaded = true → Unclosed s.core)
    (fun _ ht => Inv.of_reaches ht)
    (fun _ _ _ hinv hC hstep hu => Unclosed.step hC hstep hinv hu) nofun

/-! ## Results -/

/-- In every run of calls other than `initWith`, the reference count is exact, the library is open
exactly while it is counted, every other opening has been closed, and the tools interface keeps its
library and its table while the MPI interface comes and goes. The only calls without a result, which
end such a run, go through null members. -/
theorem refcount_exact {p : Platform} {s : Sys}
    (h : Reaches (Step p) (fun _ c => c.op.Reusing) Sys.initial s) :
    s.core.gRefcount = (if s.core.gState = .active then 1 else 0) + s.unmatched ∧
    ((∃ L, s.core.gHandle = some L ∧ s.core.linker.IsOpen L.handle) ↔
      s.core.gBackendLoaded = true) ∧
    (s.core.gBackendLoaded = true ↔ 0 < s.core.gRefcount) ∧
    s.core.linker.opened.Perm
      ((s.core.gHandle.map Library.handle).toList ++ s.core.linker.closed) ∧
    (0 < s.unmatched → ∀ op env ret st', exec p op env s.core = .ok (ret, st') →
      (op = .finalize ∨
        (op = .init ∨ ∃ required provided, op = .initThread required provided) ∧ ret ≠ .ok) →
      st'.linker.closed = s.core.linker.closed ∧ st'.gHandle = s.core.gHandle ∧
        st'.tables.unimpiMt = s.core.tables.unimpiMt) ∧
    ∀ op env f, op.Reusing → (op = .mpitFinalize → 0 < s.unmatched) →
      exec p op env s.core = .error f → f.IsNull := by
  have hinv := Inv.of_reaches h
  have hfresh : Reaches (Step p) StartsFresh Sys.initial s := h.mono fun _ _ hop => hop.startsFresh
  have hacc := Accounted.of_reaches hfresh
  have hloaded := loaded_iff_refcount_pos hinv hacc
  refine ⟨hinv.refcount, ⟨?_, fun hl => ?_⟩, hloaded, hacc.account, ?_, ?_⟩
  · rintro ⟨L, hL, -⟩
    refine hloaded.2 ?_
    have hpos := hinv.refcount_nonneg
    have hne : s.core.gRefcount ≠ 0 := by
      intro hzero
      rw [hinv.unheld hzero] at hL
      cases hL
    omega
  · obtain ⟨L, hL⟩ := Option.ne_none_iff_exists'.1 (hacc.held hl)
    exact ⟨L, hL, hinv.open_of_handle L hL⟩
  · intro hunmatched op env ret st' hexec hop
    exact kept_of_unmatched hinv hacc hunmatched hexec hop
  · intro op env f hop hbal hfault
    refine isNull_of_fault hinv (Unclosed.of_reaches hfresh) hop (fun heq => ?_) hfault
    have hcount := hinv.refcount
    have hunmatched := hbal heq
    refine hloaded.2 ?_
    split_ifs at hcount <;> omega

/-- Both interfaces hold the library of one `dlopen`. -/
def sharedCalls : List Call :=
  [⟨.mpitInitThread, .offering (some mpichLibrary) 0⟩, ⟨.init, .offering none 0⟩]

theorem refcount_exact_shared : ∃ s, Sys.initial.afterAll .linux sharedCalls = some s ∧
    s.core.gRefcount = (if s.core.gState = .active then 1 else 0) + s.unmatched ∧
    s.core.gRefcount = 2 := by
  have hrun : (Sys.initial.afterAll .linux sharedCalls).isSome := by decide +kernel
  obtain ⟨s, hs⟩ := Option.isSome_iff_exists.1 hrun
  have hcount : ((Sys.initial.afterAll .linux sharedCalls).map fun s => s.core.gRefcount) =
      some 2 := by decide +kernel
  rw [hs] at hcount
  have hreach : Reaches (Step .linux) (fun _ c => c.op.Reusing) Sys.initial s := by
    refine reaches_afterAll .refl (fun c hc t => ?_) hs
    simp only [sharedCalls, List.mem_cons, List.not_mem_nil, or_false] at hc
    rcases hc with rfl | rfl <;> exact nofun
  exact ⟨s, hs, (refcount_exact hreach).1, Option.some.inj hcount⟩

end UniMPI
