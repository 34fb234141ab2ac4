import UniMPI.Lifecycle

/-!
# Where a library comes from

The facade remembers the path it asked for and the backend it identified, but not
what it gave to `dlopen` in the end. `Provenance` records that beside a run: every
library opened, with the path that found it, and the one that the lifecycle
members of `unimpi` were last bound to. No call reads the record.

`Traces` ties the record to the state: it holds of the handles that the linker has
opened (`Traces.opened`) and of the functions behind `unimpi.init` and
`unimpi.init_thread` (`Traces.bound`), along every run (`Traces.of_reaches`).
-/

namespace UniMPI

open Runs

/-- The path under which `unimpi_loader_load` finds its library. -/
def openedPath (env : Env) (path : CString) : CString :=
  if (env.dlopen path).isSome then path else (alternative path).getD path

theorem dlopen_openedPath {env : Env} {path : CString} {L : Library}
    (h : openPath env path = some L) : env.dlopen (openedPath env path) = some L := by
  unfold openPath at h
  unfold openedPath
  cases hfirst : env.dlopen path with
  | some L' =>
    rw [hfirst] at h
    simpa [hfirst] using h
  | none =>
    rw [hfirst] at h
    cases halt : alternative path with
    | none => simp [halt] at h
    | some alt => simpa [halt] using h

theorem openPath_of_loaderLoad {env : Env} {path : CString} {L : Library}
    (h : loaderLoad env path = .ok L) : openPath env path = some L := by
  unfold loaderLoad at h
  split_ifs at h
  split at h
  · cases h
  · rename_i hopen
    rw [hopen, Except.ok.inj h]

/-! ## The loading in a call -/

/-- The path a call loads from, if it gets to loading. -/
def Call.loads (p : Platform) (c : Call) (st : State) : Option CString :=
  match c.op with
  | .mpitInitThread => if st.gBackendLoaded then none else some (detectBackend p c.env)
  | op =>
    if checkCanInitialize st = .ok ∧ (op.reuses && st.gBackendLoaded) = false then
      op.path p c.env
    else none

/-- The state when the loading in a call is over. -/
def Call.loaded (p : Platform) (c : Call) (st : State) : State :=
  match c.loads p st with
  | none => st
  | some path => (loadOutcome p c.env path st).apply p path st

section Loads

variable {p : Platform} {env : Env} {st st' : State} {op : Op} {path : CString}

theorem Call.loads_of_path (hpath : op.path p env = some path) :
    Call.loads p ⟨op, env⟩ st =
      if checkCanInitialize st = .ok ∧ (op.reuses && st.gBackendLoaded) = false then some path
      else none := by
  cases op with
  | init | initThread _ _ | initWith _ => simp only [Call.loads, hpath]
  | finalize | mpitInitThread | mpitFinalize => cases hpath

theorem Call.loads_eq_none (h : op.path p env = none ∨ checkCanInitialize st ≠ .ok)
    (hop : op ≠ .mpitInitThread) : Call.loads p ⟨op, env⟩ st = none := by
  have hcases : (if checkCanInitialize st = .ok ∧ (op.reuses && st.gBackendLoaded) = false then
      op.path p env else none) = none := by
    split_ifs with hgo
    · exact h.resolve_right (not_not.2 hgo.1)
    · rfl
  cases op with
  | mpitInitThread => exact absurd rfl hop
  | _ => exact hcases

theorem Call.loads_of_refused
    (h : op = .finalize ∧ st.gState ≠ .active ∨
      op.initializes ∧ (op.path p env = none ∨ checkCanInitialize st ≠ .ok)) :
    Call.loads p ⟨op, env⟩ st = none := by
  have hop := (Op.ne_tools_of_refused h).1
  rcases h with ⟨rfl, -⟩ | ⟨-, hwhy⟩
  · exact Call.loads_eq_none (Or.inl rfl) hop
  · exact Call.loads_eq_none hwhy hop

theorem Call.loads_of_fresh (hcheck : checkCanInitialize st = .ok)
    (hpath : op.path p env = some path) (hl : op.reuses → st.gBackendLoaded = false) :
    Call.loads p ⟨op, env⟩ st = some path := by
  have hgo : (op.reuses && st.gBackendLoaded) = false := by
    cases hr : op.reuses with
    | false => rfl
    | true => exact hl hr
  rw [Call.loads_of_path hpath, if_pos ⟨hcheck, hgo⟩]

/-- What is started was loaded before, or is loaded by the call. -/
theorem Ready.loads_cases (h : Ready p env path st op.reuses st')
    (hcheck : checkCanInitialize st = .ok) (hpath : op.path p env = some path) :
    Call.loads p ⟨op, env⟩ st = none ∧ st' = st ∨
      ∃ L t loaded, Call.loads p ⟨op, env⟩ st = some path ∧
        loadOutcome p env path st = .filled L t ∧
        st' = { (LoadOutcome.filled L t).apply p path st with gBackendLoaded := loaded } := by
  have hloads := @Call.loads_of_path p env st op path hpath
  rw [if_congr (and_iff_right hcheck) rfl rfl] at hloads
  generalize op.reuses = r at h hloads
  cases h with
  | already hl => exact Or.inl ⟨by simp [hloads, hl], rfl⟩
  | @fresh L t hl ho => exact Or.inr ⟨L, t, true, by simp [hloads, hl], ho, rfl⟩
  | @direct L t ho => exact Or.inr ⟨L, t, st.gBackendLoaded, by simp [hloads], ho, rfl⟩

/-- A call that loads nothing has no path to load from. -/
theorem Call.loads_ne_some {c : Call} (h : c.loads p st = none) (path : CString) :
    c.loads p st ≠ some path := by
  rw [h]
  exact (Option.some_ne_none path).symm

theorem Call.loaded_of_none {c : Call} (h : c.loads p st = none) : c.loaded p st = st := by
  simp only [Call.loaded, h]

theorem Call.loaded_of_some {c : Call} (h : c.loads p st = some path) :
    c.loaded p st = (loadOutcome p c.env path st).apply p path st := by
  simp only [Call.loaded, h]

/-- A ready state is the one after loading, marked as loaded. -/
theorem Ready.eq_loaded {c : Call} (h : Ready p c.env path st c.op.reuses st')
    (hloads : c.loads p st =
      if (c.op.reuses && st.gBackendLoaded) = false then some path else none) :
    st' = { c.loaded p st with gBackendLoaded := st'.gBackendLoaded } := by
  generalize c.op.reuses = r at h hloads
  cases h with
  | already hl =>
    have hnone : c.loads p st = none := by simp [hloads, hl]
    rw [Call.loaded_of_none hnone]
  | fresh hl ho =>
    have hsome : c.loads p st = some path := by simp [hloads, hl]
    rw [Call.loaded_of_some hsome, ho]
  | direct ho =>
    have hsome : c.loads p st = some path := hloads
    rw [Call.loaded_of_some hsome, ho]

theorem Ready.eq_loaded_of_path (h : Ready p env path st op.reuses st')
    (hcheck : checkCanInitialize st = .ok) (hpath : op.path p env = some path) :
    st' = { Call.loaded p ⟨op, env⟩ st with gBackendLoaded := st'.gBackendLoaded } :=
  Ready.eq_loaded (c := ⟨op, env⟩) h (by rw [Call.loads_of_path hpath]; simp [hcheck])

theorem Ready.eq_loaded_of_tools (h : Ready p env (detectBackend p env) st true st') :
    st' = { Call.loaded p ⟨.mpitInitThread, env⟩ st with
      gBackendLoaded := st'.gBackendLoaded } := by
  refine Ready.eq_loaded (c := ⟨.mpitInitThread, env⟩) h ?_
  cases hl : st.gBackendLoaded <;> simp [Call.loads, Op.reuses, hl]

theorem Call.loaded_of_failed (hcheck : checkCanInitialize st = .ok)
    (hpath : op.path p env = some path) (hl : op.reuses → st.gBackendLoaded = false) :
    Call.loaded p ⟨op, env⟩ st = (loadOutcome p env path st).apply p path st :=
  Call.loaded_of_some (Call.loads_of_fresh hcheck hpath hl)

theorem Call.loaded_of_tools (hl : st.gBackendLoaded = false) :
    Call.loaded p ⟨.mpitInitThread, env⟩ st =
      (loadOutcome p env (detectBackend p env) st).apply p (detectBackend p env) st := by
  simp [Call.loaded, Call.loads, hl]

end Loads

/-! ## What a call adds to its loading -/

/-- After its loading a call opens nothing more, and keeps the table and the identity or clears
them. -/
structure Settles (loaded st' : State) : Prop where
  opened : st'.linker.opened = loaded.linker.opened
  unimpi : st'.tables.unimpi = loaded.tables.unimpi ∨ st'.tables.unimpi = fun _ => .null
  identity : st'.gBackendIdentity = loaded.gBackendIdentity ∨ st'.gBackendIdentity = .cleared

theorem Settles.refl (st : State) : Settles st st :=
  ⟨rfl, Or.inl rfl, Or.inl rfl⟩

theorem Settles.trans {st st' st'' : State} (h : Settles st st') (h' : Settles st' st'') :
    Settles st st'' := by
  refine ⟨h'.opened.trans h.opened, ?_, ?_⟩
  · rcases h'.unimpi with heq | hnull
    · rw [heq]
      exact h.unimpi
    · exact Or.inr hnull
  · rcases h'.identity with heq | hcleared
    · rw [heq]
      exact h.identity
    · exact Or.inr hcleared

theorem settles_releaseRef (st : State) : Settles st (releaseRef st) := by
  refine ⟨releaseRef_opened st, Or.inl (by rw [releaseRef_tables]), Or.inl ?_⟩
  simp only [releaseRef, unloadHandle]
  split_ifs <;> rfl

theorem settles_cleanup (st : State) : Settles st (cleanup st) :=
  ⟨rfl, Or.inr rfl, Or.inl rfl⟩

theorem settles_unloadHandle (st : State) : Settles st (unloadHandle st) := by
  refine ⟨?_, Or.inl rfl, Or.inl rfl⟩
  unfold unloadHandle
  cases st.gHandle <;> rfl

theorem settles_initFailedState (r : Bool) (st : State) : Settles st (initFailedState r st) := by
  unfold initFailedState
  have hclear : ∀ st', Settles st st' →
      Settles st { clearBackendIdentity st' with gState := .initFailed } :=
    fun st' h => ⟨h.opened, h.unimpi, Or.inr rfl⟩
  refine hclear _ ?_
  split_ifs
  · have hcounted : Settles st { cleanup st with gRefcount := st.gRefcount + 1 } :=
      ⟨rfl, Or.inr rfl, Or.inl rfl⟩
    exact hcounted.trans (settles_releaseRef _)
  · exact (settles_cleanup st).trans (settles_unloadHandle _)

theorem settles_finalizedState (env : Env) (st : State) : Settles st (finalizedState env st) := by
  have h := (settles_cleanup st).trans (settles_releaseRef _)
  exact ⟨h.opened, h.unimpi, Or.inr rfl⟩

/-- Every call settles what it has loaded. -/
theorem Effect.settles {p : Platform} {env : Env} {st st' : State} {op : Op} {ret : ReturnCode}
    (h : Effect p env st op ret st') : Settles (Call.loaded p ⟨op, env⟩ st) st' := by
  cases h with
  | refused hret hwhy =>
    rw [Call.loaded_of_none (Call.loads_of_refused hwhy)]
    exact .refl st
  | loadFailed hcheck hpath hl ho =>
    rw [Call.loaded_of_failed hcheck hpath hl]
    exact ⟨rfl, Or.inl rfl, Or.inl rfl⟩
  | @initFailed _ _ st1 hcheck hpath hready hret =>
    have hsettled := settles_initFailedState op.reuses st1
    rw [hready.eq_loaded_of_path hcheck hpath] at hsettled ⊢
    exact ⟨hsettled.opened, hsettled.unimpi, hsettled.identity⟩
  | started level hcheck hpath hready hret hlevel =>
    rw [hready.eq_loaded_of_path hcheck hpath]
    exact ⟨rfl, Or.inl rfl, Or.inl rfl⟩
  | finalized hactive hcall =>
    rw [Call.loaded_of_none (Call.loads_eq_none (Or.inl rfl) (by decide))]
    exact settles_finalizedState env st
  | mpitLoadFailed hl ho =>
    rw [Call.loaded_of_tools hl]
    exact .refl _
  | mpitStarted hready hcall =>
    rw [hready.eq_loaded_of_tools]
    exact ⟨rfl, Or.inl rfl, Or.inl rfl⟩
  | mpitFinalized hcall =>
    rw [Call.loaded_of_none (Call.loads_eq_none (Or.inl rfl) (by decide))]
    have hcounted : Settles st { st with gMpitInited := false } := ⟨rfl, Or.inl rfl, Or.inl rfl⟩
    exact hcounted.trans (settles_releaseRef _)

/-! ## The record -/

/-- A library and the path `dlopen` found it under. -/
structure Origin where
  path : CString
  library : Library

/-- The libraries opened so far, latest first, and the one that the lifecycle members of `unimpi`
were last bound to. -/
structure Provenance where
  opened : List Origin
  bound : Option Origin

/-- What a loading adds to the record. -/
def Provenance.load (env : Env) (path : CString) (g : Provenance) : LoadOutcome → Provenance
  | .notLoaded _ => g
  | .missingCore L | .refused L _ => { g with opened := ⟨openedPath env path, L⟩ :: g.opened }
  | .unfilled L | .filled L _ =>
    ⟨⟨openedPath env path, L⟩ :: g.opened, some ⟨openedPath env path, L⟩⟩

/-- The library an outcome has opened. -/
def LoadOutcome.library : LoadOutcome → Option Library
  | notLoaded _ => none
  | missingCore L | refused L _ | unfilled L | filled L _ => some L

theorem loadOutcome_library (p : Platform) (env : Env) (path : CString) (st : State) :
    (loadOutcome p env path st).library = (loaderLoad env path).toOption := by
  have hloads := loads p env path st
  generalize loadOutcome p env path st = o at hloads ⊢
  cases hloads with
  | notLoaded hload | missingCore hload | refused hload | unfilled hload | filled hload =>
    rw [hload]
    rfl

theorem Provenance.load_opened (env : Env) (path : CString) (g : Provenance) (o : LoadOutcome) :
    (g.load env path o).opened =
      (o.library.map (Origin.mk (openedPath env path))).toList ++ g.opened := by
  cases o <;> rfl

/-- What a call adds to the record. -/
def Provenance.record (p : Platform) (s : Sys) (c : Call) (g : Provenance) : Provenance :=
  match c.loads p s.core with
  | none => g
  | some path => g.load c.env path (loadOutcome p c.env path s.core)

/-- The record grows by what the loader opens. -/
theorem Provenance.mem_record_opened {p : Platform} {s : Sys} {c : Call} {g : Provenance}
    {o : Origin} : o ∈ (g.record p s c).opened ↔ o ∈ g.opened ∨
      ∃ path, c.loads p s.core = some path ∧ loaderLoad c.env path = .ok o.library ∧
        o.path = openedPath c.env path := by
  unfold Provenance.record
  cases c.loads p s.core with
  | none => simp
  | some path =>
    simp only [Provenance.load_opened, loadOutcome_library, List.mem_append, Option.some.injEq,
      exists_eq_left']
    rw [or_comm]
    refine or_congr_right ?_
    cases loaderLoad c.env path with
    | error ret => simp [Except.toOption]
    | ok L =>
      obtain ⟨opath, olibrary⟩ := o
      simp [Except.toOption, and_comm, eq_comm]

/-- A call and what it adds to the record. -/
abbrev TracedStep (p : Platform) : Sys × Provenance → Call → Sys × Provenance → Prop :=
  Recorded (Step p) (Provenance.record p)

/-- A fresh process, with nothing opened. -/
def tracedInitial : Sys × Provenance :=
  (.initial, ⟨[], none⟩)

/-- What the record says about a state: the libraries that were opened, and the one behind the
members through which `initialize_backend` calls. -/
structure Traces (st : State) (g : Provenance) : Prop where
  opened : st.linker.opened = g.opened.map fun o => o.library.handle
  bound : ∀ s, s = .init ∨ s = .initThread → st.tables.unimpi s ≠ .null →
    ∃ o ∈ g.opened, g.bound = some o ∧ st.tables.unimpi s = o.library.bind s.symbol

theorem Traces.initial : Traces State.initial ⟨[], none⟩ :=
  ⟨rfl, fun _ _ h => absurd rfl h⟩

/-- Loading is recorded as it happens. -/
theorem Traces.load {p : Platform} {env : Env} {path : CString} {st : State} {g : Provenance}
    (h : Traces st g) :
    Traces ((loadOutcome p env path st).apply p path st)
      (g.load env path (loadOutcome p env path st)) := by
  have hkept : ∀ o : Origin, ∀ s, s = .init ∨ s = .initThread → st.tables.unimpi s ≠ .null →
      ∃ o' ∈ o :: g.opened, g.bound = some o' ∧ st.tables.unimpi s = o'.library.bind s.symbol := by
    intro o s hs hne
    obtain ⟨o', hmem, hbound⟩ := h.bound s hs hne
    exact ⟨o', List.mem_cons_of_mem _ hmem, hbound⟩
  have hopened : ∀ L : Library, L.handle :: st.linker.opened =
      (⟨openedPath env path, L⟩ :: g.opened).map fun o => o.library.handle := by
    intro L
    rw [List.map_cons, h.opened]
  cases ho : loadOutcome p env path st with
  | notLoaded ret => exact ⟨h.opened, h.bound⟩
  | missingCore L => exact ⟨hopened L, hkept _⟩
  | refused L ret => exact ⟨hopened L, hkept _⟩
  | unfilled L =>
    refine ⟨hopened L, fun s hs _ => ⟨_, List.mem_cons_self, rfl, ?_⟩⟩
    rcases hs with rfl | rfl <;> rfl
  | filled L t =>
    have hfill := (loaderLoad_of_filled ho).2.2.2
    refine ⟨hopened L, fun s hs _ => ⟨_, List.mem_cons_self, rfl, ?_⟩⟩
    rcases hs with rfl | rfl <;> exact fill_native hfill rfl

theorem Traces.settles {st st' : State} {g : Provenance} (h : Traces st g) (hs : Settles st st') :
    Traces st' g := by
  refine ⟨hs.opened.trans h.opened, fun s hslot hne => ?_⟩
  rcases hs.unimpi with heq | hnull
  · rw [heq] at hne ⊢
    exact h.bound s hslot hne
  · exact absurd (congrFun hnull s) hne

theorem Traces.loaded {p : Platform} {s : Sys} {c : Call} {g : Provenance}
    (h : Traces s.core g) : Traces (c.loaded p s.core) (g.record p s c) := by
  unfold Call.loaded Provenance.record
  cases c.loads p s.core with
  | none => exact h
  | some path => exact h.load

theorem Step.settles {p : Platform} {s s' : Sys} {c : Call} (h : Step p s c s') :
    Settles (c.loaded p s.core) s'.core := by
  obtain ⟨-, ⟨ret, hexec⟩, -⟩ := h.cases
  exact (exec_effect hexec).settles

/-- The record follows every run. -/
theorem Traces.of_reaches {p : Platform} {C : Sys × Provenance → Call → Prop}
    {t : Sys × Provenance} (h : Reaches (TracedStep p) C tracedInitial t) :
    Traces t.1.core t.2 := by
  refine h.invariant (P := fun t => Traces t.1.core t.2) ?_ Traces.initial
  rintro ⟨s, g⟩ c ⟨s', g'⟩ - ⟨hstep, rfl⟩ htraces
  exact (htraces.loaded (c := c)).settles hstep.settles

/-- A traced run of one call. -/
theorem reaches_traced_call {p : Platform} {C : Sys × Provenance → Call → Prop} {c : Call} {s : Sys}
    (hC : C tracedInitial c) (h : Sys.initial.after p c = some s) :
    Reaches (TracedStep p) C tracedInitial (s, Provenance.record p .initial c ⟨[], none⟩) :=
  .tail .refl hC ⟨h, rfl⟩

end UniMPI
