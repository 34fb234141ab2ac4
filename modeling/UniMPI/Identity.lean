import UniMPI.History
import UniMPI.Provenance
import UniMPI.BoundSlots

/-!
# The published identity

`unimpi_get_library_path` and `unimpi_get_backend_name` return strings that are saved
when a library is loaded. The path is the one given to the loader, which may have
found the library under its second name; the strings outlive a library that the
tools interface unloads, and a failed start clears them while that interface keeps
its library. They are freed before the new path is copied, and the new path may be the
old string, which a caller got from `unimpi_get_library_path` and passed on.

`identity_truthful_iff` : the strings stay truthful along the calls that start what
was found under the path asked for, with a path that is not the published string
itself, reuse a library with its strings in place, and do not unload the last library
with strings left; and the first call that does otherwise makes them untrue.
-/

namespace UniMPI

open Runs

/-- `unimpi_get_backend_name`. -/
def getBackendName (st : State) : Option CString :=
  st.gBackendIdentity.backendName

/-- `unimpi_get_library_path`. -/
def getLibraryPath (st : State) : Option CString :=
  st.gBackendIdentity.libraryPath

/-! ## The argument of `unimpi_init_with` -/

/-- A call, and whether the name it passes is the string that `unimpi_get_library_path` returned. -/
structure PassedCall where
  call : Call
  ownPath : Bool

/-- The library path of the call is the argument itself, and not an entry of the table. -/
def Op.pathIsArgument : Op → Bool
  | .initWith (some name) => (unimpiBackends.find? fun i => i.name = name).isNone
  | _ => false

/-- The path of the call is the string that `save_backend_identity` frees before it copies the
path. -/
def PassedCall.pathIsFreed (c : PassedCall) : Bool :=
  c.ownPath && c.call.op.pathIsArgument

/-- One call, with an argument as it says. -/
def PassedStep (p : Platform) (s : Sys) (c : PassedCall) (s' : Sys) : Prop :=
  Step p s c.call s' ∧ (c.ownPath = true → ∃ path, c.call.op = .initWith (some path) ∧
    getLibraryPath s.core = some path)

/-- What was opened so far, and whether the published path was copied from freed memory. -/
structure Publication where
  provenance : Provenance
  freed : Bool

/-- The record after a call: loading that succeeds saves the strings. -/
def Publication.record (p : Platform) (s : Sys) (c : PassedCall) (g : Publication) :
    Publication where
  provenance := g.provenance.record p s c.call
  freed :=
    match c.call.loads p s.core with
    | none => g.freed
    | some path =>
      if (loadOutcome p c.call.env path s.core).code = .ok then c.pathIsFreed else g.freed

/-- A call and what it adds to the record. -/
abbrev PublishedStep (p : Platform) : Sys × Publication → PassedCall → Sys × Publication → Prop :=
  Recorded (PassedStep p) (Publication.record p)

/-- A fresh process, with nothing opened. -/
def publishedInitial : Sys × Publication :=
  (.initial, ⟨⟨[], none⟩, false⟩)

/-! ## Truthful strings -/

/-- The strings are those of the library that the members of `unimpi` are bound to, and the path was
not copied from freed memory. -/
def Published (p : Platform) (st : State) (g : Publication) : Prop :=
  g.freed = false ∧ ∃ o, g.provenance.bound = some o ∧ getLibraryPath st = some o.path ∧
    getBackendName st = backendName (identifyBackend p o.library)

/-- Nothing is published. -/
def Unpublished (st : State) : Prop :=
  getLibraryPath st = none ∧ getBackendName st = none

/-- What a caller of the two functions relies on. -/
structure Truthful (p : Platform) (st : State) (g : Publication) : Prop where
  active : st.gState = .active → Published p st g
  unloaded : st.linker.NoneOpen → Unpublished st

/-! ## The condition -/

/-- The call starts the backend, unless loading fails. -/
def Starts (p : Platform) (s : Sys) (c : Call) : Prop :=
  c.op.path p c.env ≠ none ∧ checkCanInitialize s.core = .ok ∧ c.env.mpiInit = 0

/-- A call that starts a library it has loaded finds it under the path it asks for, which is not the
published string, one that starts a library loaded before finds its strings in place, and the last
release of the tools interface leaves a library open or has no strings to leave. -/
structure KeepsIdentity (p : Platform) (t : Sys × Publication) (c : PassedCall) : Prop where
  found : ∀ path, Starts p t.1 c.call → c.call.loads p t.1.core = some path →
    (loadOutcome p c.call.env path t.1.core).code = .ok → (c.call.env.dlopen path).isSome
  copied : ∀ path, Starts p t.1 c.call → c.call.loads p t.1.core = some path →
    (loadOutcome p c.call.env path t.1.core).code = .ok → c.pathIsFreed = false
  reused : Starts p t.1 c.call → c.call.loads p t.1.core = none → Published p t.1.core t.2
  released : ∀ L, c.call.op = .mpitFinalize → t.1.core.gRefcount ≤ 1 →
    t.1.core.gHandle = some L → (t.1.core.linker.closeLib L.handle).NoneOpen →
    Unpublished t.1.core

theorem KeepsIdentity.of_not_starts {p : Platform} {t : Sys × Publication} {c : PassedCall}
    (hstarts : ¬Starts p t.1 c.call) (hop : c.call.op ≠ .mpitFinalize) : KeepsIdentity p t c :=
  ⟨fun _ h => absurd h hstarts, fun _ h => absurd h hstarts, fun h => absurd h hstarts,
    fun _ h => absurd h hop⟩

/-! ## The backend is started through a member -/

/-- A member through which a backend is started can be called. -/
def StartedThrough (st : State) : Prop :=
  ∃ s, (s = .init ∨ s = .initThread) ∧ st.tables.unimpi s ≠ .null ∧ callSlot st s = .ok ()

/-- A call through a member that is null does not return. -/
theorem unimpi_ne_null_of_callSlot {st : State} {s : Slot} (h : callSlot st s = .ok ()) :
    st.tables.unimpi s ≠ .null := by
  intro hnull
  simp [callSlot, Tables.target, hnull] at h

section Started

variable {p : Platform} {env : Env} {st st' : State}

theorem initSlot_cases (threadMode : Bool) (st : State) :
    initSlot threadMode st = .init ∨ initSlot threadMode st = .initThread := by
  unfold initSlot
  split_ifs <;> simp

theorem initializeBackend_started {threadMode : Bool}
    (h : initializeBackend p env threadMode st = .ok (.ok, st')) : StartedThrough st' := by
  unfold initializeBackend at h
  dsimp only at h
  split_ifs at h with hret
  · exact absurd (Prod.mk.inj (Except.ok.inj h)).1 hret
  · split at h
    · cases h
    · rename_i hcall
      unfold finishInit at h
      split_ifs at h with hfailed
      · cases (Prod.mk.inj (Except.ok.inj h)).1
      · obtain ⟨-, rfl⟩ := Prod.mk.inj (Except.ok.inj h)
        exact ⟨_, initSlot_cases threadMode _, unimpi_ne_null_of_callSlot hcall, hcall⟩

theorem initWith_started {name : Option CString} (h : initWith p env name st = .ok (.ok, st')) :
    StartedThrough st' := by
  cases name with
  | none => cases (Prod.mk.inj (Except.ok.inj h)).1
  | some name =>
    unfold initWith at h
    dsimp only at h
    split_ifs at h with hcheck hret hfailed
    · exact absurd (Prod.mk.inj (Except.ok.inj h)).1 hcheck
    · exact absurd (Prod.mk.inj (Except.ok.inj h)).1 hret
    · split at h
      · cases h
      · cases (Prod.mk.inj (Except.ok.inj h)).1
    · split at h
      · cases h
      · rename_i hcall
        obtain ⟨-, rfl⟩ := Prod.mk.inj (Except.ok.inj h)
        exact ⟨.init, Or.inl rfl, unimpi_ne_null_of_callSlot hcall, hcall⟩

/-- An initialisation that succeeds has called the backend. -/
theorem exec_started {op : Op} (hop : op.initializes = true)
    (h : exec p op env st = .ok (.ok, st')) : StartedThrough st' := by
  cases op with
  | init =>
    simp only [exec, init] at h
    split_ifs at h with hcheck
    · exact absurd (Prod.mk.inj (Except.ok.inj h)).1 hcheck
    · exact initializeBackend_started h
  | initThread required provided =>
    simp only [exec, initThread] at h
    split_ifs at h with _ _ hcheck
    · cases (Prod.mk.inj (Except.ok.inj h)).1
    · cases (Prod.mk.inj (Except.ok.inj h)).1
    · exact absurd (Prod.mk.inj (Except.ok.inj h)).1 hcheck
    · exact initializeBackend_started h
  | initWith name => exact initWith_started h
  | finalize | mpitInitThread | mpitFinalize => cases hop

end Started

theorem StartedThrough.congr {st st' : State} (h : StartedThrough st)
    (ht : st'.tables = st.tables) (hk : st'.linker = st.linker) : StartedThrough st' := by
  obtain ⟨s, hs, hne, hcall⟩ := h
  refine ⟨s, hs, by rwa [ht], ?_⟩
  unfold callSlot at hcall ⊢
  rwa [ht, hk]

/-- In an active state, the backend can be called as it was when it was started. -/
theorem StartedThrough.step {p : Platform} {s s' : Sys} {c : Call} (hinv : Inv s)
    (h : Step p s c s') (hstarted : s.core.gState = .active → StartedThrough s.core)
    (hactive : s'.core.gState = .active) : StartedThrough s'.core := by
  obtain ⟨op, env⟩ := c
  obtain ⟨core', n⟩ := s'
  obtain ⟨hbal, ⟨ret, hexec⟩, -⟩ := h.cases
  dsimp only at hexec hactive hbal ⊢
  have heff := exec_effect hexec
  cases heff with
  | refused hret hwhy => exact hstarted hactive
  | loadFailed hcheck hpath hl ho => cases hactive
  | initFailed hcheck hpath hready hret => cases hactive
  | started level hcheck hpath hready hret hlevel =>
    exact exec_started (Op.initializes_of_path hpath) hexec
  | finalized hs hcall => exact absurd hactive (finalizedState_not_active _ _)
  | mpitLoadFailed hl ho =>
    rw [LoadOutcome.apply_gState_eq] at hactive
    exact absurd hactive (hinv.not_active_of_unloaded hl)
  | mpitStarted hready hcall =>
    have hbefore : s.core.gState = .active := hready.gState.symm.trans hactive
    cases hready with
    | already hl => exact (hstarted hbefore).congr rfl rfl
    | fresh hl ho => exact absurd hbefore (hinv.not_active_of_unloaded hl)
  | mpitFinalized hcall =>
    have hbefore : s.core.gState = .active := by rwa [releaseRef_gState_eq] at hactive
    have hcount := hinv.refcount_of_active hbefore
    have hunmatched := hbal rfl
    rw [releaseRef_of_held (Or.inl (by simp only; omega))]
    exact (hstarted hbefore).congr rfl rfl

theorem StartedThrough.of_reaches {p : Platform} {s : Sys}
    (h : Reaches (Step p) (fun _ _ => True) Sys.initial s) (hactive : s.core.gState = .active) :
    StartedThrough s.core :=
  h.invariant_with (P := fun s => s.core.gState = .active → StartedThrough s.core)
    (fun _ ht => Inv.of_reaches ht)
    (fun _ _ _ hinv _ hstep hs => StartedThrough.step hinv hstep hs) nofun hactive

/-- A facade that was started has a library open. -/
theorem StartedThrough.not_noneOpen {st : State} {g : Provenance} (h : StartedThrough st)
    (htraces : Traces st g) : ¬st.linker.NoneOpen := by
  obtain ⟨s, hs, hne, hcall⟩ := h
  obtain ⟨o, -, -, heq⟩ := htraces.bound s hs hne
  have htarget := Tables.target_of_bind heq
  have he := (o.library.bind_ne_null_iff s.symbol).1 (heq ▸ hne)
  rw [o.library.bind_of_exports he] at htarget
  simp only [callSlot, htarget] at hcall
  split_ifs at hcall with hopen
  exact fun hnone => hnone _ hopen

/-! ## One call -/

/-- The second name of a library is not its first. -/
theorem alternative_ne_self (path : CString) : alternative path ≠ some path := by
  have hall : ∀ i ∈ unimpiBackends, i.libNameAlt ≠ some i.libName := by decide
  intro h
  obtain ⟨i, hfind, halt⟩ := Option.bind_eq_some_iff.1 h
  have hname : i.libName = path := by simpa using List.find?_some hfind
  exact hall i (List.mem_of_find?_eq_some hfind) (by rw [halt, hname])

/-- A library is found under the path asked for, or under another one. -/
theorem openedPath_eq_iff {env : Env} {path : CString} {L : Library}
    (h : openPath env path = some L) : openedPath env path = path ↔ (env.dlopen path).isSome := by
  unfold openedPath
  split_ifs with hfirst
  · simp [hfirst]
  · simp only [hfirst, iff_false, Bool.false_eq_true]
    intro heq
    cases halt : alternative path with
    | none =>
      rw [Bool.not_eq_true, Option.isSome_eq_false_iff, Option.isNone_iff_eq_none] at hfirst
      simp [openPath, hfirst, halt] at h
    | some alt =>
      rw [halt, Option.getD_some] at heq
      exact alternative_ne_self path (heq ▸ halt)

/-- Just after loading, what is published is right exactly if the library was found under the path
asked for and that path was copied in time. -/
theorem published_load_iff {p : Platform} {env : Env} {path : CString} {st st' : State}
    {g : Provenance} {freed : Bool} {L : Library} {t : Tables}
    (ho : loadOutcome p env path st = .filled L t)
    (hid : st'.gBackendIdentity =
      ⟨identifyBackend p L, backendName (identifyBackend p L), some path⟩) :
    Published p st' ⟨g.load env path (loadOutcome p env path st), freed⟩ ↔
      (env.dlopen path).isSome ∧ freed = false := by
  have hopen : openPath env path = some L :=
    openPath_of_loaderLoad (loaderLoad_of_filled ho).1
  rw [← openedPath_eq_iff hopen]
  simp [Published, getLibraryPath, getBackendName, hid, ho, Provenance.load, eq_comm, and_comm]

theorem LoadOutcome.noneOpen_of_failed {p : Platform} {path : CString} {st : State}
    {o : LoadOutcome} (h : o.code ≠ .ok) :
    (o.apply p path st).linker.NoneOpen ↔ st.linker.NoneOpen := by
  simp only [Linker.NoneOpen, LoadOutcome.isOpen_of_failed h]

/-- Failed loading leaves the strings as they are. -/
theorem Truthful.loadFailed {p : Platform} {path : CString} {st st' : State} {g g' : Publication}
    {o : LoadOutcome} (h : Truthful p st g) (ho : o.code ≠ .ok)
    (hid : st'.gBackendIdentity = (o.apply p path st).gBackendIdentity)
    (hk : st'.linker = (o.apply p path st).linker) (hs : st'.gState ≠ .active) :
    Truthful p st' g' := by
  refine ⟨fun hactive => absurd hactive hs, fun hnone => ?_⟩
  rw [hk, LoadOutcome.noneOpen_of_failed ho] at hnone
  simpa [Unpublished, getLibraryPath, getBackendName, hid, o.apply_identity_of_failed ho]
    using h.unloaded hnone

theorem truthful_of_cleared {p : Platform} {st : State} {g : Publication}
    (hid : st.gBackendIdentity = .cleared) (hs : st.gState ≠ .active) : Truthful p st g := by
  refine ⟨fun hactive => absurd hactive hs, fun _ => ?_⟩
  simp [Unpublished, getLibraryPath, getBackendName, hid, BackendIdentity.cleared]

section OneCall

variable {p : Platform} {s s' : Sys} {c : Call} {g : Publication} {path : CString}

/-- The strings after a start. -/
theorem published_started_iff {op : Op} {env : Env} {own : Bool} {st' core' : State}
    (hstarts : Starts p s ⟨op, env⟩) (hpath : op.path p env = some path)
    (hready : Ready p env path s.core op.reuses st')
    (hid : core'.gBackendIdentity = st'.gBackendIdentity) :
    Published p core' (g.record p s ⟨⟨op, env⟩, own⟩) ↔
      KeepsIdentity p (s, g) ⟨⟨op, env⟩, own⟩ := by
  have hop : op ≠ .mpitFinalize := by
    rintro rfl
    cases hpath
  rcases hready.loads_cases hstarts.2.1 hpath with ⟨hnone, rfl⟩ | ⟨L, t, loaded, hsome, ho, rfl⟩
  · have hsame : Published p core' g ↔ Published p s.core g := by
      simp only [Published, getLibraryPath, getBackendName, hid]
    have hrecord : g.record p s ⟨⟨op, env⟩, own⟩ = g := by
      simp only [Publication.record, Provenance.record, hnone]
    rw [hrecord, hsame]
    exact ⟨fun hpub => ⟨fun path _ hsome => absurd hsome (Call.loads_ne_some hnone path),
        fun path _ hsome => absurd hsome (Call.loads_ne_some hnone path), fun _ _ => hpub,
        fun _ h => absurd h hop⟩,
      fun hC => hC.reused hstarts hnone⟩
  · have hcode : (loadOutcome p env path s.core).code = .ok := by rw [ho]; rfl
    simp only [Publication.record, Provenance.record, hsome, hcode, if_true]
    rw [published_load_iff ho hid]
    refine ⟨fun ⟨hfound, hcopied⟩ => ⟨fun path' _ hpath' _ => ?_, fun _ _ _ _ => hcopied,
        fun _ hnone => absurd hsome (Call.loads_ne_some hnone path), fun _ h => absurd h hop⟩,
      fun hC => ⟨hC.found path hstarts hsome hcode, hC.copied path hstarts hsome hcode⟩⟩
    obtain rfl := Option.some.inj (hsome.symm.trans hpath')
    exact hfound

/-- A call of the tools interface, or one that is refused, starts nothing. -/
theorem not_starts_of_path {op : Op} {env : Env} (h : op.path p env = none) :
    ¬Starts p s ⟨op, env⟩ :=
  fun hstarts => hstarts.1 h

/-- Finalizing the tools interface, while a call is unmatched. -/
theorem Truthful.mpitFinalized_iff {env : Env} {own : Bool} (h : Truthful p s.core g) (hinv : Inv s)
    (hunmatched : 0 < s.unmatched) :
    Truthful p (UniMPI.releaseRef { s.core with gMpitInited := false }) g ↔
      KeepsIdentity p (s, g) ⟨⟨.mpitFinalize, env⟩, own⟩ := by
  have hstarts := @not_starts_of_path p s .mpitFinalize env rfl
  by_cases hheld : 1 < s.core.gRefcount ∨ s.core.gHandle = none
  · rw [releaseRef_of_held (by exact hheld)]
    refine iff_of_true ⟨h.active, h.unloaded⟩
      ⟨fun _ hgo => absurd hgo hstarts, fun _ hgo => absurd hgo hstarts,
        fun hgo => absurd hgo hstarts, fun L _ hr hL => ?_⟩
    rcases hheld with hmore | hnone
    · exact absurd hmore (Int.not_lt.2 hr)
    · exact absurd (hnone.symm.trans hL) nofun
  · obtain ⟨hr, hsome⟩ := not_or.1 hheld
    obtain ⟨L, hL⟩ := Option.ne_none_iff_exists'.1 hsome
    have hidle : s.core.gState ≠ .active := by
      intro hactive
      have hcount := hinv.refcount_of_active hactive
      omega
    rw [@releaseRef_of_last _ L (by simp only; omega) (by exact hL)]
    constructor
    · intro htruth
      refine ⟨fun _ hgo => absurd hgo hstarts, fun _ hgo => absurd hgo hstarts,
        fun hgo => absurd hgo hstarts, fun L' _ _ hL' => ?_⟩
      obtain rfl := Option.some.inj (hL.symm.trans hL')
      exact htruth.unloaded
    · intro hC
      exact ⟨fun hactive => absurd hactive hidle, hC.released L rfl (Int.not_lt.1 hr) hL⟩

/-- A call keeps the strings truthful exactly if it meets the condition. -/
theorem Truthful.step_iff {own : Bool} (h : Truthful p s.core g) (hinv : Inv s)
    (hstep : Step p s c s') (htraces : Traces s'.core (g.provenance.record p s c))
    (hstarted : s'.core.gState = .active → StartedThrough s'.core) :
    Truthful p s'.core (g.record p s ⟨c, own⟩) ↔ KeepsIdentity p (s, g) ⟨c, own⟩ := by
  have hidle : c.loads p s.core = none → g.record p s ⟨c, own⟩ = g := fun hnone => by
    simp only [Publication.record, Provenance.record, hnone]
  obtain ⟨op, env⟩ := c
  obtain ⟨core', n⟩ := s'
  obtain ⟨hbal, ⟨ret, hexec⟩, -⟩ := hstep.cases
  dsimp only at hexec hbal hstarted htraces hidle ⊢
  cases exec_effect hexec with
  | refused hret hwhy =>
    have hstarts : ¬Starts p s ⟨op, env⟩ := by
      rintro ⟨hpath, hcheck, -⟩
      rcases hwhy with ⟨rfl, -⟩ | ⟨-, hnone | hrefused⟩
      · exact hpath rfl
      · exact hpath hnone
      · exact hrefused hcheck
    rw [hidle (Call.loads_of_refused hwhy)]
    exact iff_of_true h (.of_not_starts hstarts (Op.ne_tools_of_refused hwhy).2)
  | loadFailed hcheck hpath hl ho =>
    have hloads := Call.loads_of_fresh hcheck hpath hl
    refine iff_of_true (h.loadFailed ho rfl rfl nofun)
      ⟨fun path' _ hpath' hok => ?_, fun path' _ hpath' hok => ?_,
        fun _ hnone => absurd hloads (Call.loads_ne_some hnone _), fun L hop => ?_⟩
    · obtain rfl := Option.some.inj (hloads.symm.trans hpath')
      exact absurd hok ho
    · obtain rfl := Option.some.inj (hloads.symm.trans hpath')
      exact absurd hok ho
    · cases hop
      cases hpath
  | initFailed hcheck hpath hready hret =>
    refine iff_of_true (truthful_of_cleared rfl nofun) (.of_not_starts (fun h => hret h.2.2) ?_)
    rintro rfl
    cases hpath
  | started level hcheck hpath hready hret hlevel =>
    have hopen := (hstarted rfl).not_noneOpen htraces
    refine Iff.trans ?_ (published_started_iff ⟨?_, hcheck, hret⟩ hpath hready rfl)
    · exact ⟨fun htruth => htruth.active rfl,
        fun hpub => ⟨fun _ => hpub, fun hnone => absurd hnone hopen⟩⟩
    · rw [hpath]
      exact Option.some_ne_none _
  | finalized hs hcall =>
    exact iff_of_true (truthful_of_cleared rfl (finalizedState_not_active env s.core))
      (.of_not_starts (not_starts_of_path rfl) (by exact Op.noConfusion))
  | mpitLoadFailed hl ho =>
    refine iff_of_true (h.loadFailed ho rfl rfl fun hactive => ?_)
      (.of_not_starts (not_starts_of_path rfl) (by exact Op.noConfusion))
    rw [LoadOutcome.apply_gState_eq] at hactive
    exact absurd hactive (hinv.not_active_of_unloaded hl)
  | mpitStarted hready hcall =>
    refine iff_of_true ?_ (.of_not_starts (not_starts_of_path rfl) (by exact Op.noConfusion))
    cases hready with
    | already hl =>
      have hnone : Call.loads p ⟨.mpitInitThread, env⟩ s.core = none := by simp [Call.loads, hl]
      rw [hidle hnone]
      exact ⟨h.active, h.unloaded⟩
    | @fresh L t hl ho =>
      refine ⟨fun hactive => ?_, fun hnone => ?_⟩
      · exact absurd hactive (hinv.not_active_of_unloaded hl)
      · exact absurd (Linker.isOpen_openLib_self (hinv.balanced L.handle)) (hnone L.handle)
  | mpitFinalized hcall =>
    rw [hidle (Call.loads_eq_none (Or.inl rfl) (by decide))]
    exact h.mpitFinalized_iff hinv (hbal rfl)

end OneCall

/-! ## Results -/

theorem Truthful.initial (p : Platform) : Truthful p State.initial ⟨⟨[], none⟩, false⟩ :=
  ⟨nofun, fun _ => ⟨rfl, rfl⟩⟩

section Runs

variable {p : Platform} {t : Sys × Publication}

/-- A published run is a traced run. -/
theorem reaches_traced {C : Sys × Publication → PassedCall → Prop}
    (h : Reaches (PublishedStep p) C publishedInitial t) :
    Reaches (TracedStep p) (fun _ _ => True) tracedInitial (t.1, t.2.provenance) := by
  refine h.map (fun t => (t.1, t.2.provenance)) PassedCall.call fun s c s' hstep => ?_
  exact ⟨hstep.1.1, congrArg Publication.provenance hstep.2⟩

/-- The condition is exact along every run. -/
theorem truthful_step_iff {C : Sys × Publication → PassedCall → Prop} {c : PassedCall}
    {t' : Sys × Publication} (h : Reaches (PublishedStep p) C publishedInitial t)
    (htruth : Truthful p t.1.core t.2) (hstep : PublishedStep p t c t') :
    Truthful p t'.1.core t'.2 ↔ KeepsIdentity p t c := by
  have hnext := reaches_traced (.tail (h.mono fun _ _ _ => trivial) trivial hstep)
  have htraces := Traces.of_reaches hnext
  have hstarted := StartedThrough.of_reaches hnext.forget
  obtain ⟨s', g'⟩ := t'
  obtain ⟨hone, rfl⟩ := hstep
  exact htruth.step_iff (Inv.of_reaches (reaches_traced h).forget) hone.1 htraces hstarted

/-- In every run whose calls meet the condition, an active facade publishes the path and the backend
name of the opened library whose member started it, and a facade without an open library publishes
nothing; and the first call that does not meet the condition makes one of the two untrue. -/
theorem identity_truthful_iff (h : Reaches (PublishedStep p) (KeepsIdentity p) publishedInitial t) :
    Truthful p t.1.core t.2 ∧
    (t.1.core.gState = .active → ∃ o ∈ t.2.provenance.opened, t.2.provenance.bound = some o ∧
      ∃ s : Slot, (s = .init ∨ s = .initThread) ∧ o.library.exports s.symbol = true ∧
        t.1.core.tables.unimpi s = o.library.bind s.symbol) ∧
    ∀ c t', PublishedStep p t c t' → (Truthful p t'.1.core t'.2 ↔ KeepsIdentity p t c) := by
  have htruth : Truthful p t.1.core t.2 :=
    h.invariant_with
      (J := fun t => Reaches (PublishedStep p) (KeepsIdentity p) publishedInitial t)
      (P := fun t => Truthful p t.1.core t.2) (fun _ ht => ht)
      (fun _ _ _ ht hC hstep htr => (truthful_step_iff ht htr hstep).2 hC) (Truthful.initial p)
  refine ⟨htruth, fun hactive => ?_, fun c t' hstep => truthful_step_iff h htruth hstep⟩
  have htraced := reaches_traced h
  obtain ⟨s, hs, hne, -⟩ := StartedThrough.of_reaches htraced.forget hactive
  obtain ⟨o, hmem, hbound, heq⟩ := (Traces.of_reaches htraced).bound s hs hne
  exact ⟨o, hmem, hbound, s, hs, (o.library.bind_ne_null_iff _).1 (heq ▸ hne), heq⟩

end Runs

/-- A call whose argument is a string of its caller. -/
def Call.passed (c : Call) : PassedCall :=
  ⟨c, false⟩

/-- A published run of one call. -/
theorem reaches_published_call {p : Platform} {C : Sys × Publication → PassedCall → Prop} {c : Call}
    {s : Sys} (hC : C publishedInitial c.passed) (h : Sys.initial.after p c = some s) :
    Reaches (PublishedStep p) C publishedInitial
      (s, Publication.record p .initial c.passed ⟨⟨[], none⟩, false⟩) :=
  .tail .refl hC ⟨⟨h, nofun⟩, rfl⟩

/-- Every run can be published. -/
theorem reaches_published {p : Platform} {s : Sys}
    (h : Reaches (Step p) (fun _ _ => True) Sys.initial s) :
    ∃ g, Reaches (PublishedStep p) (fun _ _ => True) publishedInitial (s, g) := by
  have hpassed : Reaches (PassedStep p) (fun _ _ => True) Sys.initial s :=
    h.map id Call.passed fun _ _ _ hstep => ⟨hstep, nofun⟩
  exact hpassed.recorded _

/-- A library found under the default path is published under it. -/
theorem identity_truthful_iff_default : ∃ t,
    Reaches (PublishedStep .linux) (KeepsIdentity .linux) publishedInitial t ∧
    t.1.core.gState = .active ∧ Truthful .linux t.1.core t.2 := by
  have hrun : ((Sys.initial.after .linux ⟨.init, .offering (some mpichLibrary) 0⟩).map fun s =>
      s.core.gState) = some .active := by decide +kernel
  obtain ⟨s, hs, hactive⟩ := Option.map_eq_some_iff.1 hrun
  have hloads :
      Call.loads .linux ⟨.init, .offering (some mpichLibrary) 0⟩ State.initial ≠ none := by
    decide
  have hreach := reaches_published_call (C := KeepsIdentity .linux)
    ⟨fun _ _ _ _ => rfl, fun _ _ _ _ => rfl, fun _ hnone => absurd hnone hloads,
      fun _ hop => by cases hop⟩ hs
  exact ⟨_, hreach, hactive, (identity_truthful_iff hreach).1⟩

/-- A system with Open MPI under its old name only. -/
def oldOpenmpiEnv : Env :=
  { Env.offering none 0 with
    dlopen := fun path => if path = "libmpi.so.20".toList then some openmpiFull else none }

/-- The tools interface publishes the path of the library it loads. -/
def publishingCall : Call :=
  ⟨.mpitInitThread, .offering (some mpichLibrary) 0⟩

/-- A start with the path that was published. -/
def republishingCall : Call :=
  ⟨.initWith (some "libmpi.so.40".toList), .offering (some mpichLibrary) 0⟩

/-- The old name of Open MPI is published as the new one, the strings of a library that only the
tools interface has used stay when it is unloaded, and a start with the published path copies it
when it has been freed. -/
theorem not_identity_truthful :
    (¬∀ t, Reaches (PublishedStep .linux) (fun _ _ => True) publishedInitial t →
      t.1.core.gState = .active → Published .linux t.1.core t.2) ∧
    (¬∀ t, Reaches (PublishedStep .linux) (fun _ _ => True) publishedInitial t →
      t.1.core.linker.NoneOpen → Unpublished t.1.core) ∧
    ∃ t, Reaches (PublishedStep .linux) (fun _ _ => True) publishedInitial t ∧
      t.1.core.gState = .active ∧ t.2.freed = true := by
  refine ⟨?_, ?_, ?_⟩
  · have hrun : ((Sys.initial.after .linux ⟨.init, oldOpenmpiEnv⟩).map fun s =>
        (s.core.gState, getLibraryPath s.core)) =
        some (.active, some "libmpi.so.40".toList) := by decide +kernel
    have hbound : ((Publication.record .linux .initial (Call.passed ⟨.init, oldOpenmpiEnv⟩)
        ⟨⟨[], none⟩, false⟩).provenance.bound.map Origin.path) = some "libmpi.so.20".toList := by
      decide +kernel
    obtain ⟨s, hs, hstate⟩ := Option.map_eq_some_iff.1 hrun
    obtain ⟨hactive, hpath⟩ := Prod.mk.inj hstate
    intro h
    obtain ⟨-, o, ho, hpub, -⟩ := h _ (reaches_published_call trivial hs) hactive
    rw [ho, Option.map_some] at hbound
    rw [hpath, Option.some.inj hbound] at hpub
    exact absurd hpub (by decide)
  · have hrun : ((Sys.initial.afterAll .linux
        [⟨.mpitInitThread, .offering (some mpichLibrary) 0⟩, ⟨.mpitFinalize, .offering none 0⟩]).map
        fun s => (s.core.linker.opened, s.core.linker.closed, getLibraryPath s.core)) =
        some ([1], [1], some "libmpi.so.40".toList) := by decide +kernel
    obtain ⟨s, hs, hstate⟩ := Option.map_eq_some_iff.1 hrun
    obtain ⟨hopened, hrest⟩ := Prod.mk.inj hstate
    obtain ⟨hclosed, hpath⟩ := Prod.mk.inj hrest
    have hreach : Reaches (Step .linux) (fun _ _ => True) Sys.initial s :=
      reaches_afterAll .refl (fun _ _ _ => trivial) hs
    obtain ⟨g, hg⟩ := reaches_published hreach
    intro h
    have hnone : s.core.linker.NoneOpen := by
      intro handle
      simp [Linker.IsOpen, hopened, hclosed]
    exact absurd (hpath.symm.trans (h _ hg hnone).1) (Option.some_ne_none _)
  · have hrun : ((Sys.initial.after .linux publishingCall).bind fun s =>
        (s.after .linux republishingCall).map fun s' =>
          (getLibraryPath s.core, s'.core.gState,
            (Publication.record .linux s ⟨republishingCall, true⟩
              (.record .linux .initial publishingCall.passed ⟨⟨[], none⟩, false⟩)).freed)) =
        some (some "libmpi.so.40".toList, .active, true) := by decide +kernel
    obtain ⟨s, hs, hrest⟩ := Option.bind_eq_some_iff.1 hrun
    obtain ⟨s', hs', hstate⟩ := Option.map_eq_some_iff.1 hrest
    obtain ⟨hpath, hstate⟩ := Prod.mk.inj hstate
    obtain ⟨hactive, hfreed⟩ := Prod.mk.inj hstate
    have hreach := reaches_published_call (C := fun _ _ => True) trivial hs
    have hstep : PassedStep .linux s ⟨republishingCall, true⟩ s' :=
      ⟨hs', fun _ => ⟨_, rfl, hpath⟩⟩
    exact ⟨(s', _), .tail hreach trivial ⟨hstep, rfl⟩, hactive, hfreed⟩

end UniMPI
