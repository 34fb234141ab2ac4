import UniMPI.LifecycleOrder

/-!
# The tools interface

`unimpi_mpit_init_thread` takes its reference and sets the flag before it calls the
backend, and takes neither back when `MPI_T_init_thread` fails. The flag is one bit,
which the first `unimpi_mpit_finalize` clears, while initialisations nest.

`mpitInitThread_undone_iff` : a failing initialisation is undone exactly if it fails
in loading. `mtInitialized_nested_iff` : the flag is right exactly along the runs
that do not finalize the inner of several initialisations.
-/

namespace UniMPI

open Runs

/-- `unimpi_mt_initialized`; `flag` tells whether the caller passed a pointer, and the second part
is what is written to it. -/
def mtInitialized (flag : Bool) (st : State) : ReturnCode × Option Int :=
  if !flag then (.errInvalidArgument, none)
  else (.ok, some (if st.gMpitInited then 1 else 0))

theorem flagged_mtInitialized_iff (st : State) :
    Flagged mtInitialized st ↔ st.gMpitInited = true := by
  simp [Flagged, mtInitialized]

/-! ## Failing initialisations -/

/-- A call has left no trace: the reference count and the flag are as before, nothing is open that
was not, no library became loaded, and a finalization that would have closed the library still
does. -/
structure Undone (st st' : State) : Prop where
  refcount : st'.gRefcount = st.gRefcount
  flag : Flagged mtInitialized st' ↔ Flagged mtInitialized st
  closed : ∀ h, st'.linker.IsOpen h → st.linker.IsOpen h
  unloaded : st.gBackendLoaded = false → st'.gBackendLoaded = false ∧ st'.gHandle = none
  closes : ∀ env, (finalizedState env st).gHandle = none → (finalizedState env st').gHandle = none

@[simp] theorem LoadOutcome.apply_gMpitInited (p : Platform) (path : CString) (st : State)
    (o : LoadOutcome) : (o.apply p path st).gMpitInited = st.gMpitInited := by
  cases o <;> rfl

theorem finalizedState_gHandle_of_none {st : State} (h : st.gHandle = none) (env : Env) :
    (finalizedState env st).gHandle = none := by
  have hkept : releaseRef (cleanup st) = _ := releaseRef_of_held (Or.inr h)
  simp only [finalizedState, clearBackendIdentity, hkept]
  exact h

section Undone

variable {p : Platform} {env : Env} {ret : ReturnCode} {st st' : State}

/-- Failed loading is undone. -/
theorem undone_of_loadFailed (hl : st.gBackendLoaded = false) {path : CString}
    {o : LoadOutcome} (ho : o.code ≠ .ok) : Undone st (o.apply p path st) := by
  have hhandle : (o.apply p path st).gHandle = none := o.apply_gHandle_of_failed ho
  refine ⟨o.apply_gRefcount .., ?_, fun h => (LoadOutcome.isOpen_of_failed ho).1,
    fun _ => ⟨?_, hhandle⟩, fun env _ => ?_⟩
  · simp only [flagged_mtInitialized_iff, LoadOutcome.apply_gMpitInited]
  · rw [o.apply_gBackendLoaded, hl]
  · exact finalizedState_gHandle_of_none hhandle env

/-- From every state, an initialisation of the tools interface that returns an error is
undone if and only if it got no further than loading. -/
theorem mpitInitThread_undone_iff
    (hexec : exec p .mpitInitThread env st = .ok (ret, st')) :
    (ret ≠ .ok → Undone st st') ↔ env.mpitInit = 0 ∨ st.gBackendLoaded = false ∧
      (loadOutcome p env (detectBackend p env) st).code ≠ .ok := by
  cases exec_effect hexec with
  | refused hret hwhy => exact absurd rfl (Op.ne_tools_of_refused hwhy).1
  | loadFailed hcheck hpath => cases hpath
  | initFailed hcheck hpath => cases hpath
  | started level hcheck hpath => cases hpath
  | mpitLoadFailed hl ho =>
    exact iff_of_true (fun _ => undone_of_loadFailed hl ho) (Or.inr ⟨hl, ho⟩)
  | mpitStarted hready hcall =>
    constructor
    · intro hundone
      by_contra hneither
      obtain ⟨hcode, -⟩ := not_or.1 hneither
      have hcount := (hundone (by simp [ofBackend, hcode])).refcount
      simp only [hready.gRefcount] at hcount
      omega
    · rintro (hcode | ⟨hl, ho⟩) hret
      · exact absurd (by rw [ofBackend, if_pos hcode]) hret
      · cases hready with
        | already hl' => exact absurd hl' (ne_true_of_eq_false hl)
        | fresh _ hfilled =>
          rw [hfilled] at ho
          exact absurd rfl ho

end Undone

/-- Finalize the tools interface and MPI after a failed tools initialisation. -/
def failingTools : List Call :=
  [⟨.init, .offering (some mpichLibrary) 0⟩,
    ⟨.mpitInitThread, { Env.offering none 0 with mpitInit := 1 }⟩, ⟨.finalize, .offering none 0⟩]

/-- Without a library to load, a failed initialisation is undone. -/
theorem mpitInitThread_undone_iff_missing : ∃ st',
    exec .linux .mpitInitThread (.offering none 0) .initial = .ok (.errBackendLoad, st') ∧
    Undone .initial st' := by
  obtain ⟨st', hexec⟩ := @exists_ok_of_codeOf
    (exec .linux .mpitInitThread (.offering none 0) .initial) .errBackendLoad (by decide +kernel)
  exact ⟨st', hexec, (mpitInitThread_undone_iff hexec).2 (Or.inl rfl) (by decide)⟩

/-- A failed `MPI_T_init_thread` leaves its reference, and the library stays open when MPI is
finalized. -/
theorem not_mpitInitThread_undone :
    (¬∀ env s ret st', Reaches (Step .linux) (fun _ _ => True) Sys.initial s →
      exec .linux .mpitInitThread env s.core = .ok (ret, st') → ret ≠ .ok → Undone s.core st') ∧
    ∃ s, Sys.initial.afterAll .linux failingTools = some s ∧ s.core.gState = .finalized ∧
      s.core.linker.IsOpen 1 := by
  constructor
  · obtain ⟨st', hexec⟩ := @exists_ok_of_codeOf
      (exec .linux .mpitInitThread { Env.offering (some mpichLibrary) 0 with mpitInit := 1 }
        .initial)
      (.backend 1) (by decide +kernel)
    have hcount : (exec .linux .mpitInitThread
        { Env.offering (some mpichLibrary) 0 with mpitInit := 1 } .initial).toOption.map
        (fun r => r.2.gRefcount) = some 1 := by decide +kernel
    rw [hexec] at hcount
    intro h
    have hkept := (h _ Sys.initial _ st' .refl hexec (by decide)).refcount
    exact absurd ((Option.some.inj hcount).symm.trans hkept) (by decide)
  · have hrun : ((Sys.initial.afterAll .linux failingTools).map fun s =>
        (s.core.gState, decide (s.core.linker.IsOpen 1))) = some (.finalized, true) := by
      decide +kernel
    obtain ⟨s, hs, hstate⟩ := Option.map_eq_some_iff.1 hrun
    obtain ⟨hfinalized, hopen⟩ := Prod.mk.inj hstate
    exact ⟨s, hs, hfinalized, of_decide_eq_true hopen⟩

/-! ## Nested initialisations -/

/-- The calls of `unimpi_mpit_init_thread` and `unimpi_mpit_finalize` in a run. -/
structure ToolsCount where
  inits : ℕ
  finalizes : ℕ

/-- What a call adds to the count. -/
def ToolsCount.record (_ : Sys) (c : Call) (n : ToolsCount) : ToolsCount :=
  match c.op with
  | .mpitInitThread => { n with inits := n.inits + 1 }
  | .mpitFinalize => { n with finalizes := n.finalizes + 1 }
  | _ => n

/-- A call and what it adds to the count. -/
abbrev CountedStep (p : Platform) : Sys × ToolsCount → Call → Sys × ToolsCount → Prop :=
  Recorded (Step p) ToolsCount.record

/-- The calls of the tools interface succeed. -/
def ToolsSucceed (p : Platform) (t : Sys × ToolsCount) (c : Call) : Prop :=
  c.op = .mpitInitThread ∨ c.op = .mpitFinalize →
    codeOf (exec p c.op c.env t.1.core) = some .ok

/-- The call does not finalize the inner of several initialisations. -/
def NotNested (t : Sys × ToolsCount) (c : Call) : Prop :=
  c.op = .mpitFinalize → t.2.inits ≤ t.2.finalizes + 1

instance (p : Platform) (t : Sys × ToolsCount) (c : Call) : Decidable (ToolsSucceed p t c) :=
  inferInstanceAs (Decidable (_ → _))

instance (t : Sys × ToolsCount) (c : Call) : Decidable (NotNested t c) :=
  inferInstanceAs (Decidable (_ → _))

/-- The flag says whether there were more initialisations than finalizations. -/
def FlagTruthful (t : Sys × ToolsCount) : Prop :=
  Flagged mtInitialized t.1.core ↔ t.2.finalizes < t.2.inits

/-- The count of a run of successful calls is that of the unmatched ones. -/
def Counts (t : Sys × ToolsCount) : Prop :=
  t.2.finalizes + t.1.unmatched = t.2.inits

@[simp] theorem releaseRef_gMpitInited (st : State) :
    (releaseRef st).gMpitInited = st.gMpitInited := by
  simp only [releaseRef, unloadHandle]
  split_ifs <;> rfl

theorem initFailedState_gMpitInited (r : Bool) (st : State) :
    (initFailedState r st).gMpitInited = st.gMpitInited := by
  unfold initFailedState
  split_ifs
  · exact releaseRef_gMpitInited _
  · rfl

theorem Ready.gMpitInited {p : Platform} {env : Env} {path : CString} {st st' : State} {r : Bool}
    (h : Ready p env path st r st') : st'.gMpitInited = st.gMpitInited := by
  cases h <;> rfl

/-- The calls of the MPI interface leave the flag alone. -/
theorem Effect.gMpitInited {p : Platform} {env : Env} {st st' : State} {op : Op} {ret : ReturnCode}
    (h : Effect p env st op ret st') (hinit : op ≠ .mpitInitThread) (hfin : op ≠ .mpitFinalize) :
    st'.gMpitInited = st.gMpitInited := by
  cases h with
  | refused hret hwhy => rfl
  | loadFailed hcheck hpath hl ho => exact LoadOutcome.apply_gMpitInited ..
  | initFailed hcheck hpath hready hret =>
    exact (initFailedState_gMpitInited _ _).trans hready.gMpitInited
  | started level hcheck hpath hready hret hlevel => exact hready.gMpitInited
  | finalized hs hcall => exact releaseRef_gMpitInited (cleanup st)
  | mpitLoadFailed | mpitStarted => exact absurd rfl hinit
  | mpitFinalized => exact absurd rfl hfin

/-- A successful initialisation sets the flag and is counted. -/
theorem mpitInitThread_ok {p : Platform} {env : Env} {st st' : State}
    (h : mpitInitThread p env st = .ok (.ok, st')) :
    (ensureLoaded p env st).1 = .ok ∧ st'.gMpitInited = true := by
  unfold mpitInitThread at h
  dsimp only at h
  split_ifs at h with hret
  · exact absurd (Prod.mk.inj (Except.ok.inj h)).1 hret
  · split at h
    · cases h
    · obtain ⟨-, rfl⟩ := Prod.mk.inj (Except.ok.inj h)
      exact ⟨not_not.1 hret, rfl⟩

section CountedStep

variable {p : Platform} {s s' : Sys} {c : Call} {n : ToolsCount}

theorem Counts.step (hstep : Step p s c s') (hok : ToolsSucceed p (s, n) c)
    (h : Counts (s, n)) : Counts (s', n.record s c) := by
  obtain ⟨op, env⟩ := c
  obtain ⟨core', m⟩ := s'
  obtain ⟨hbal, ⟨ret, hexec⟩, hcount⟩ := hstep.cases
  unfold ToolsSucceed at hok
  unfold Counts at h ⊢
  dsimp only at hexec hcount hbal hok h ⊢
  subst hcount
  cases op with
  | mpitInitThread =>
    have hret := hok (Or.inl rfl)
    rw [hexec] at hret
    obtain rfl : ret = .ok := Option.some.inj hret
    have hloaded := (mpitInitThread_ok (by exact hexec)).1
    simp only [Sys.unmatchedAfter, hloaded, if_true, ToolsCount.record]
    omega
  | mpitFinalize =>
    have hpos := hbal rfl
    simp only [Sys.unmatchedAfter, ToolsCount.record]
    omega
  | init | initThread _ _ | initWith _ | finalize => exact h

/-- A successful call keeps the flag right exactly if it finalizes no inner initialisation. -/
theorem FlagTruthful.step_iff (hstep : Step p s c s') (hok : ToolsSucceed p (s, n) c)
    (hcounts : Counts (s, n)) (h : FlagTruthful (s, n)) :
    FlagTruthful (s', n.record s c) ↔ NotNested (s, n) c := by
  obtain ⟨op, env⟩ := c
  obtain ⟨core', m⟩ := s'
  obtain ⟨-, ⟨ret, hexec⟩, -⟩ := hstep.cases
  unfold ToolsSucceed at hok
  unfold Counts at hcounts
  unfold FlagTruthful NotNested at *
  rw [flagged_mtInitialized_iff] at *
  dsimp only at hexec hok hcounts h ⊢
  cases op with
  | mpitInitThread =>
    have hret := hok (Or.inl rfl)
    rw [hexec] at hret
    obtain rfl : ret = .ok := Option.some.inj hret
    have hflag := (mpitInitThread_ok (by exact hexec)).2
    simp only [hflag, ToolsCount.record, true_iff, reduceCtorEq, false_imp_iff, iff_true]
    omega
  | mpitFinalize =>
    cases exec_effect hexec with
    | refused hret hwhy => exact absurd rfl (Op.ne_tools_of_refused hwhy).2
    | loadFailed hcheck hpath | initFailed hcheck hpath => cases hpath
    | started level hcheck hpath => cases hpath
    | mpitFinalized hcall =>
      simp only [releaseRef_gMpitInited, ToolsCount.record, Bool.false_eq_true, false_iff,
        forall_const]
      omega
  | init | initThread _ _ | initWith _ | finalize =>
    have hflag := (exec_effect hexec).gMpitInited Op.noConfusion Op.noConfusion
    rw [hflag]
    exact iff_of_true h Op.noConfusion

end CountedStep

/-! ## Results -/

theorem Counts.of_reaches {p : Platform} {C : Sys × ToolsCount → Call → Prop} {t : Sys × ToolsCount}
    (hC : ∀ t c, C t c → ToolsSucceed p t c)
    (h : Reaches (CountedStep p) C (Sys.initial, ⟨0, 0⟩) t) : Counts t := by
  refine h.invariant (P := Counts) ?_ rfl
  rintro ⟨s, n⟩ c ⟨s', n'⟩ hCs ⟨hstep, rfl⟩ hcounts
  exact hcounts.step hstep (hC _ _ hCs)

theorem FlagTruthful.initial : FlagTruthful (Sys.initial, ⟨0, 0⟩) :=
  (flagged_mtInitialized_iff _).trans (iff_of_false Bool.false_ne_true (Nat.lt_irrefl 0))

theorem flagTruthful_step_iff {p : Platform} {C : Sys × ToolsCount → Call → Prop}
    {t t' : Sys × ToolsCount} {c : Call} (hC : ∀ t c, C t c → ToolsSucceed p t c)
    (h : Reaches (CountedStep p) C (Sys.initial, ⟨0, 0⟩) t) (hright : FlagTruthful t)
    (hstep : CountedStep p t c t') (hok : ToolsSucceed p t c) :
    FlagTruthful t' ↔ NotNested t c := by
  have hcounts := Counts.of_reaches hC h
  obtain ⟨s', n'⟩ := t'
  obtain ⟨hone, rfl⟩ := hstep
  exact hright.step_iff hone hok hcounts

/-- In every run in which the calls of the tools interface succeed, none finalizes more than was
initialised and none finalizes the inner of several initialisations, the flag is set exactly when
there were more initialisations than finalizations; and the first successful call that finalizes an
inner one makes it wrong. -/
theorem mtInitialized_nested_iff {p : Platform} {t : Sys × ToolsCount}
    (h : Reaches (CountedStep p) (fun t c => ToolsSucceed p t c ∧ NotNested t c)
      (Sys.initial, ⟨0, 0⟩) t) :
    FlagTruthful t ∧ ∀ c t', CountedStep p t c t' → ToolsSucceed p t c →
      (FlagTruthful t' ↔ NotNested t c) := by
  have hright : FlagTruthful t := by
    refine h.invariant_with (P := FlagTruthful) (fun _ ht => ht) ?_ FlagTruthful.initial
    intro t c t' ht hCt hstep hright
    exact (flagTruthful_step_iff (fun _ _ hC => hC.1) ht hright hstep hCt.1).2 hCt.2
  exact ⟨hright, fun c t' hstep hok =>
    flagTruthful_step_iff (fun _ _ hC => hC.1) h hright hstep hok⟩

/-- `unimpi_mpit_init_thread` and `unimpi_mpit_finalize`, with an MPICH library behind every
path. -/
def toolsInit : Call :=
  ⟨.mpitInitThread, .offering (some mpichLibrary) 0⟩

def toolsFinalize : Call :=
  ⟨.mpitFinalize, .offering (some mpichLibrary) 0⟩

theorem toolsSucceed_initial (n : ToolsCount) : ToolsSucceed .linux (Sys.initial, n) toolsInit := by
  have hok : codeOf (exec .linux .mpitInitThread toolsInit.env Sys.initial.core) = some .ok := by
    decide +kernel
  exact fun _ => hok

/-- The counted run of a list of calls, while the tools interface succeeds without nesting. -/
def toolsRun (p : Platform) : List Call → Option (Sys × ToolsCount) :=
  runWhile (fun t c => (t.1.after p c).map fun s => (s, ToolsCount.record t.1 c t.2))
    (fun t c => ToolsSucceed p t c ∧ NotNested t c) (Sys.initial, ⟨0, 0⟩)

theorem reaches_of_toolsRun {p : Platform} {cs : List Call} {t : Sys × ToolsCount}
    (h : toolsRun p cs = some t) : Reaches (CountedStep p)
      (fun t c => ToolsSucceed p t c ∧ NotNested t c) (Sys.initial, ⟨0, 0⟩) t := by
  refine reaches_of_runWhile (fun t c t' hnext => ?_) .refl h
  obtain ⟨s, hs, rfl⟩ := Option.map_eq_some_iff.1 hnext
  exact ⟨hs, rfl⟩

/-- Three cycles of the tools interface, the first two across the ends of a cycle of MPI, the third
one open. -/
def interleavedTools : List Call :=
  [toolsInit, ⟨.init, .offering (some mpichLibrary) 0⟩, toolsFinalize, toolsInit,
    ⟨.finalize, .offering none 0⟩, toolsFinalize, toolsInit]

/-- The flag is set after them. -/
theorem mtInitialized_nested_iff_interleaved : ∃ t,
    Reaches (CountedStep .linux) (fun t c => ToolsSucceed .linux t c ∧ NotNested t c)
      (Sys.initial, ⟨0, 0⟩) t ∧ t.2 = ⟨3, 2⟩ ∧ Flagged mtInitialized t.1.core := by
  have hrun : ((toolsRun .linux interleavedTools).map fun t => (t.2.inits, t.2.finalizes)) =
      some (3, 2) := by decide +kernel
  obtain ⟨t, ht, hcount⟩ := Option.map_eq_some_iff.1 hrun
  obtain ⟨hinits, hfinalizes⟩ := Prod.mk.inj hcount
  have hreach := reaches_of_toolsRun ht
  refine ⟨t, hreach, ?_, (mtInitialized_nested_iff hreach).1.2 (by omega)⟩
  rw [← hinits, ← hfinalizes]

/-- After two initialisations and one finalization, the flag is not set. -/
theorem not_mtInitialized_nested : ¬∀ t, Reaches (CountedStep .linux) (ToolsSucceed .linux)
    (Sys.initial, ⟨0, 0⟩) t → FlagTruthful t := by
  have hrun : ((Sys.initial.after .linux toolsInit).map fun s =>
      (codeOf (exec .linux .mpitInitThread toolsInit.env s.core),
        (s.after .linux toolsInit).map fun s =>
          (codeOf (exec .linux .mpitFinalize toolsFinalize.env s.core),
            (s.after .linux toolsFinalize).map fun s => s.core.gMpitInited))) =
      some (some .ok, some (some .ok, some false)) := by decide +kernel
  obtain ⟨s₁, hs₁, hrest⟩ := Option.map_eq_some_iff.1 hrun
  obtain ⟨hok₁, hrest⟩ := Prod.mk.inj hrest
  obtain ⟨s₂, hs₂, hrest⟩ := Option.map_eq_some_iff.1 hrest
  obtain ⟨hok₂, hrest⟩ := Prod.mk.inj hrest
  obtain ⟨s₃, hs₃, hflag⟩ := Option.map_eq_some_iff.1 hrest
  have hone : Reaches (CountedStep .linux) (ToolsSucceed .linux) (Sys.initial, ⟨0, 0⟩)
      (s₁, ⟨1, 0⟩) := .tail .refl (toolsSucceed_initial _) ⟨hs₁, rfl⟩
  have htwo : Reaches (CountedStep .linux) (ToolsSucceed .linux) (Sys.initial, ⟨0, 0⟩)
      (s₂, ⟨2, 0⟩) := .tail hone (fun _ => hok₁) ⟨hs₂, rfl⟩
  have hthree : Reaches (CountedStep .linux) (ToolsSucceed .linux) (Sys.initial, ⟨0, 0⟩)
      (s₃, ⟨2, 1⟩) := .tail htwo (fun _ => hok₂) ⟨hs₃, rfl⟩
  intro h
  have hset := (flagged_mtInitialized_iff _).1 ((h _ hthree).2 Nat.one_lt_two)
  exact absurd (hset.symm.trans hflag) (by decide)

end UniMPI
