import UniMPI.Lifecycle

/-!
# Entries of the tables and open libraries

The library is closed by failure exits of two functions, by `unimpi_finalize` and
by the release of the tools interface. Only some of these clear the main table,
and none clears the tools table. `KeepsBindings` collects what a call must avoid,
and `noDangling_iff` shows it exact: along the calls that avoid it every
library-bound member belongs to an open library, and every other call leaves a
member that does not, or that is bound while the handle is `NULL`.
-/

namespace UniMPI

open Runs

/-- A member of `unimpi` ends in the library, by itself or through its adapter. -/
def MainBound (t : Tables) (lib : ℕ) : Prop :=
  ∃ s addr, t.target s = .native lib addr

/-- A member of `unimpi_mt` is a function of the library. -/
def ToolsBound (t : Tables) (lib : ℕ) : Prop :=
  ∃ s addr, t.unimpiMt s = .native lib addr

/-- Every library-bound member belongs to an open library, and there is none without a handle. -/
structure NoDangling (st : State) : Prop where
  main_open : ∀ lib, MainBound st.tables lib → st.linker.IsOpen lib
  tools_open : ∀ lib, ToolsBound st.tables lib → st.linker.IsOpen lib
  unbound : st.gHandle = none → ∀ lib, ¬MainBound st.tables lib ∧ ¬ToolsBound st.tables lib

/-- What loading must avoid: losing the handle of members that stay bound. With `start`, the
backend's `MPI_Init` follows. -/
def LoadsCleanly (p : Platform) (env : Env) (path : CString) (st : State) (start : Bool) : Prop :=
  match loadOutcome p env path st with
  | .notLoaded _ => ∀ lib, ¬MainBound st.tables lib ∧ ¬ToolsBound st.tables lib
  | .missingCore _ | .refused _ _ => ∀ lib, ¬MainBound st.tables lib
  | .unfilled _ => False
  | .filled L _ => start = true → env.mpiInit ≠ 0 → ∀ s : MtSlot, L.exports s.symbol = false

/-- What a call must avoid. -/
structure KeepsBindings (p : Platform) (s : Sys) (c : Call) : Prop where
  /-- The last reference is given up by `unimpi_finalize`, and with an empty tools table. -/
  finalize : c.op = .finalize → s.core.gState = .active → s.core.gRefcount = 1 →
    ∀ lib, ¬ToolsBound s.core.tables lib
  mpitFinalize : c.op = .mpitFinalize → s.core.gRefcount ≠ 1
  mpitInitThread : c.op = .mpitInitThread → s.core.gBackendLoaded = false →
    LoadsCleanly p c.env (detectBackend p c.env) s.core false
  starts : checkCanInitialize s.core = .ok → ∀ path, c.op.path p c.env = some path →
    (c.op.reuses = true → s.core.gBackendLoaded = false) → LoadsCleanly p c.env path s.core true

/-! ## What the tables hold -/

theorem bind_eq_native_iff {L : Library} {symbol : String} {lib addr : ℕ} :
    L.bind symbol = .native lib addr ↔
      L.exports symbol = true ∧ lib = L.handle ∧ addr = L.dlsym symbol := by
  unfold Library.bind
  cases L.exports symbol with
  | true => simp [eq_comm]
  | false => simp

/-- A member of an integer-handle fill ends in its library, where it ended before, or in none. -/
theorem legacyFill_target (b : BackendType) (value : Library → Global → Option Int) (L : Library)
    (t : Tables) (s : Slot) :
    (legacyFill b value L t).target s = L.bind s.symbol ∨
      (legacyFill b value L t).target s = t.target s ∨
      ∀ lib addr, (legacyFill b value L t).target s ≠ .native lib addr := by
  have hentry : (legacyFill b value L t).unimpi s = legacyEntry b L (t.unimpi s) s := rfl
  have hnative : ∀ b', (legacyFill b value L t).natives b' s =
      if b' = b then legacyNative L (t.natives b' s) s else t.natives b' s := fun _ => rfl
  cases hk : s.kind with
  | native =>
    simp only [legacyEntry, hk] at hentry
    exact Or.inl (Tables.target_of_bind hentry)
  | requestArray =>
    simp only [legacyEntry, hk] at hentry
    rw [Tables.target_of_wrapper hentry, hnative, if_pos rfl, legacyNative, hk]
    exact Or.inl rfl
  | typeArray =>
    simp only [legacyEntry, hk] at hentry
    split_ifs at hentry with he
    · rw [Tables.target_of_wrapper hentry, hnative, if_pos rfl, legacyNative, hk]
      exact Or.inl rfl
    · cases hold : t.unimpi s with
      | wrapper b' =>
        rw [hold] at hentry
        rw [Tables.target_of_wrapper hentry, Tables.target_of_wrapper hold, hnative]
        split_ifs with hb
        · rw [legacyNative, hk]
          exact Or.inl rfl
        · exact Or.inr (Or.inl rfl)
      | _ =>
        rw [hold] at hentry
        exact Or.inr (Or.inl (by rw [Tables.target, hentry, Tables.target, hold]))
  | statusReader =>
    simp only [legacyEntry, hk] at hentry
    refine Or.inr (Or.inr fun lib addr => ?_)
    simp [Tables.target, hentry]
  | aint =>
    simp only [legacyEntry, hk] at hentry
    split_ifs at hentry with he
    · exact Or.inl (Tables.target_of_bind hentry)
    · refine Or.inr (Or.inr fun lib addr => ?_)
      simp [Tables.target, hentry]

theorem openmpiEntry_target {t : Tables} {L : Library} {s : Slot}
    (h : t.unimpi s = openmpiEntry L s) :
    t.target s = L.bind s.symbol ∨ ∀ lib addr, t.target s ≠ .native lib addr := by
  unfold openmpiEntry at h
  split at h
  · refine Or.inr fun lib addr => ?_
    simp [Tables.target, h]
  · split_ifs at h
    · exact Or.inl (Tables.target_of_bind h)
    · refine Or.inr fun lib addr => ?_
      simp [Tables.target, h]
  · exact Or.inl (Tables.target_of_bind h)

/-- A filled table has the bindings of its library, and some of those it had. -/
theorem mainBound_of_fill {b : BackendType} {L : Library} {t t' : Tables} {lib : ℕ}
    (h : fill b L t = some t') (hb : MainBound t' lib) : lib = L.handle ∨ MainBound t lib := by
  obtain ⟨s, addr, hs⟩ := hb
  have hlegacy : ∀ b value, t' = legacyFill b value L t → lib = L.handle ∨ MainBound t lib := by
    rintro b value rfl
    rcases legacyFill_target b value L t s with heq | heq | hnone
    · exact Or.inl (bind_eq_native_iff.1 (heq.symm.trans hs)).2.1
    · exact Or.inr ⟨s, addr, heq.symm.trans hs⟩
    · exact absurd hs (hnone lib addr)
  cases b with
  | openmpi =>
    obtain ⟨-, ht'⟩ := fill_openmpi_eq_some_iff.1 h
    have hentry : t'.unimpi s = openmpiEntry L s := by rw [ht']
    rcases openmpiEntry_target hentry with heq | hnone
    · exact Or.inl (bind_eq_native_iff.1 (heq.symm.trans hs)).2.1
    · exact absurd hs (hnone lib addr)
  | unknown | mpich | intelmpi | msmpi => exact hlegacy _ _ (Option.some.inj h).symm

theorem not_mainBound_cleanup (t : Tables) (lib : ℕ) : ¬MainBound (vtableCleanup t) lib := by
  rintro ⟨s, addr, hs⟩
  cases hs

theorem toolsBound_bind_iff {t : Tables} {L : Library} {lib : ℕ}
    (ht : t.unimpiMt = fun s => L.bind s.symbol) :
    ToolsBound t lib ↔ lib = L.handle ∧ ∃ s : MtSlot, L.exports s.symbol = true := by
  simp only [ToolsBound, ht, bind_eq_native_iff]
  constructor
  · rintro ⟨s, addr, he, hlib, -⟩
    exact ⟨hlib, s, he⟩
  · rintro ⟨hlib, s, he⟩
    exact ⟨s, _, he, hlib, rfl⟩

/-! ## The effects on the bindings -/

theorem NoDangling.of_eq {st st' : State} (h : NoDangling st) (ht : st'.tables = st.tables)
    (hL : st'.gHandle = st.gHandle) (hk : st'.linker = st.linker) : NoDangling st' := by
  refine ⟨?_, ?_, ?_⟩
  · rw [ht, hk]
    exact h.main_open
  · rw [ht, hk]
    exact h.tools_open
  · rw [ht, hL]
    exact h.unbound

/-- Without a handle, a state is clean exactly if nothing is bound. -/
theorem noDangling_iff_of_none {st : State} (hL : st.gHandle = none) :
    NoDangling st ↔ ∀ lib, ¬MainBound st.tables lib ∧ ¬ToolsBound st.tables lib := by
  refine ⟨fun h => h.unbound hL, fun h => ⟨fun lib hm => ?_, fun lib ht => ?_, fun _ => h⟩⟩
  · exact absurd hm (h lib).1
  · exact absurd ht (h lib).2

section Loading

variable {p : Platform} {env : Env} {path : CString} {st st' : State} {L : Library} {t : Tables}

theorem not_toolsBound_vtableInitStart (t : Tables) (lib : ℕ) :
    ¬ToolsBound (vtableInitStart t) lib := by
  rintro ⟨s, addr, hs⟩
  cases hs

/-- A failed Open MPI fill leaves `init` bound. -/
theorem mainBound_unfilled (ho : loadOutcome p env path st = .unfilled L) :
    MainBound ((LoadOutcome.unfilled L).apply p path st).tables L.handle :=
  ⟨.init, L.dlsym "MPI_Init",
    Tables.target_of_bind rfl |>.trans
      (L.bind_of_exports (exports_of_validateCore (fill_of_unfilled ho).1).1)⟩

/-- Failed loading leaves a clean state exactly if it loads cleanly. -/
theorem noDangling_failed_iff {start : Bool} (ho : (loadOutcome p env path st).code ≠ .ok) :
    NoDangling ((loadOutcome p env path st).apply p path st) ↔
      LoadsCleanly p env path st start := by
  rw [noDangling_iff_of_none (LoadOutcome.apply_gHandle_of_failed ho), LoadsCleanly]
  cases hout : loadOutcome p env path st with
  | notLoaded ret => exact Iff.rfl
  | missingCore L =>
    exact forall_congr' fun lib => and_iff_left (not_toolsBound_vtableInitStart _ lib)
  | refused L ret =>
    exact forall_congr' fun lib => and_iff_left (not_toolsBound_vtableInitStart _ lib)
  | unfilled L => exact iff_false_intro fun h => (h L.handle).1 (mainBound_unfilled hout)
  | filled L t =>
    rw [hout] at ho
    exact absurd rfl ho

/-- A library given up after its start has failed leaves a clean state exactly if it has no function
of the tools interface. -/
theorem noDangling_abandoned_iff (ho : loadOutcome p env path st = .filled L t)
    (hret : env.mpiInit ≠ 0) :
    NoDangling (abandonedState p path st L t) ↔ LoadsCleanly p env path st true := by
  have hfill : t.unimpiMt = fun s => L.bind s.symbol :=
    fill_unimpiMt (loaderLoad_of_filled ho).2.2.2
  have hmt : (abandonedState p path st L t).tables.unimpiMt = fun s => L.bind s.symbol := hfill
  rw [noDangling_iff_of_none rfl, LoadsCleanly, ho]
  constructor
  · intro h _ _ s
    by_contra he
    refine (h L.handle).2 ((toolsBound_bind_iff hmt).2 ⟨rfl, s, ?_⟩)
    exact eq_true_of_ne_false he
  · intro h lib
    refine ⟨not_mainBound_cleanup t lib, fun htools => ?_⟩
    obtain ⟨-, s, he⟩ := (toolsBound_bind_iff hmt).1 htools
    exact absurd (h rfl hret s) (ne_false_of_eq_true he)

/-- A filled library leaves a clean state. -/
theorem noDangling_filled (hb : st.linker.Balanced) (h : NoDangling st)
    (ho : loadOutcome p env path st = .filled L t) :
    NoDangling ((LoadOutcome.filled L t).apply p path st) := by
  have hfill := (loaderLoad_of_filled ho).2.2.2
  have hopen := Linker.isOpen_openLib_self (hb L.handle)
  refine ⟨fun lib hm => ?_, fun lib ht => ?_, nofun⟩
  · rcases mainBound_of_fill hfill hm with rfl | hold
    · exact hopen
    · exact (h.main_open lib hold).openLib L.handle
  · obtain ⟨rfl, -⟩ := (toolsBound_bind_iff (fill_unimpiMt hfill)).1 ht
    exact hopen

/-- Clearing the main table keeps a clean state clean. -/
theorem NoDangling.retained (h : NoDangling st) : NoDangling (retainedState st) :=
  ⟨fun lib hm => absurd hm (not_mainBound_cleanup _ lib), h.tools_open,
    fun hnone lib => ⟨not_mainBound_cleanup _ lib, (h.unbound hnone lib).2⟩⟩

/-- What has been loaded for a call has loaded cleanly, up to the start of the backend. -/
theorem Ready.loadsCleanly {r start : Bool} (h : Ready p env path st r st')
    (hr : r = true → st.gBackendLoaded = false)
    (hstart : start = true → env.mpiInit ≠ 0 → False) : LoadsCleanly p env path st start := by
  unfold LoadsCleanly
  cases h with
  | already hl => exact absurd hl (ne_true_of_eq_false (hr rfl))
  | fresh hl ho =>
    rw [ho]
    exact fun h hne => (hstart h hne).elim
  | direct ho =>
    rw [ho]
    exact fun h hne => (hstart h hne).elim

theorem NoDangling.ready {r : Bool} (h : NoDangling st) (hb : st.linker.Balanced)
    (hready : Ready p env path st r st') : NoDangling st' := by
  cases hready with
  | already hl => exact h
  | fresh hl ho => exact (noDangling_filled hb h ho).of_eq rfl rfl rfl
  | direct ho => exact noDangling_filled hb h ho

end Loading

/-! ## The tools table -/

/-- The members of the tools table are functions of libraries. -/
def ToolsPlain (t : Tables) : Prop :=
  ∀ s, t.unimpiMt s = .null ∨ ∃ lib addr, t.unimpiMt s = .native lib addr

theorem toolsPlain_bind {t : Tables} {L : Library} (ht : t.unimpiMt = fun s => L.bind s.symbol) :
    ToolsPlain t := by
  intro s
  rw [ht]
  cases he : L.exports s.symbol with
  | false => exact Or.inl ((L.bind_eq_null_iff _).2 he)
  | true => exact Or.inr ⟨_, _, L.bind_of_exports he⟩

theorem ToolsPlain.apply {p : Platform} {env : Env} {path : CString} {st : State}
    (h : ToolsPlain st.tables) :
    ToolsPlain ((loadOutcome p env path st).apply p path st).tables := by
  cases ho : loadOutcome p env path st with
  | notLoaded ret => exact h
  | missingCore L | refused L ret | unfilled L => exact fun _ => Or.inl rfl
  | filled L t => exact toolsPlain_bind (fill_unimpiMt (loaderLoad_of_filled ho).2.2.2)

theorem ToolsPlain.ready {p : Platform} {env : Env} {path : CString} {st st' : State} {r : Bool}
    (h : ToolsPlain st.tables) (hready : Ready p env path st r st') : ToolsPlain st'.tables := by
  have happly := @ToolsPlain.apply p env path st h
  cases hready with
  | already hl => exact h
  | fresh hl ho =>
    rw [ho] at happly
    exact happly
  | direct ho =>
    rw [ho] at happly
    exact happly

theorem ToolsPlain.step {p : Platform} {s s' : Sys} {c : Call} (hstep : Step p s c s')
    (h : ToolsPlain s.core.tables) : ToolsPlain s'.core.tables := by
  obtain ⟨op, env⟩ := c
  obtain ⟨core', n⟩ := s'
  obtain ⟨-, ⟨ret, hexec⟩, -⟩ := hstep.cases
  dsimp only at hexec ⊢
  cases exec_effect hexec with
  | refused hret hwhy => exact h
  | loadFailed hcheck hpath hl ho => exact h.apply
  | initFailed hcheck hpath hready hret =>
    have hplain := h.ready hready
    simp only [initFailedState, clearBackendIdentity]
    split_ifs
    · rw [releaseRef_tables]
      exact hplain
    · exact hplain
  | started level hcheck hpath hready hret hlevel =>
    have hplain := h.ready hready
    exact hplain
  | finalized hactive hcall =>
    simp only [finalizedState, clearBackendIdentity, releaseRef_tables]
    exact h
  | mpitLoadFailed hl ho => exact h.apply
  | mpitStarted hready hcall =>
    have hplain := h.ready hready
    exact hplain
  | mpitFinalized hcall =>
    rw [releaseRef_tables]
    exact h

theorem ToolsPlain.of_reaches {p : Platform} {C : Sys → Call → Prop} {s : Sys}
    (h : Reaches (Step p) C Sys.initial s) : ToolsPlain s.core.tables :=
  h.invariant (P := fun s => ToolsPlain s.core.tables) (fun _ _ _ _ hstep hs => hs.step hstep)
    fun _ => Or.inl rfl

/-- The tools interface is finalized through a member that is bound. -/
theorem toolsBound_of_call {st : State} {s : MtSlot} (h : ToolsPlain st.tables)
    (hcall : callMtSlot st s = .ok ()) : ∃ lib, ToolsBound st.tables lib := by
  rcases h s with hnull | ⟨lib, addr, hnative⟩
  · simp [callMtSlot, hnull] at hcall
  · exact ⟨lib, s, addr, hnative⟩

/-! ## The condition, call by call -/

section Condition

variable {p : Platform} {s : Sys} {env : Env}

theorem keepsBindings_iff_of_initializes {op : Op} (h : op.initializes = true) :
    KeepsBindings p s ⟨op, env⟩ ↔ (checkCanInitialize s.core = .ok →
      ∀ path, op.path p env = some path → (op.reuses = true → s.core.gBackendLoaded = false) →
        LoadsCleanly p env path s.core true) := by
  refine ⟨fun hC => hC.starts, fun hstart => ⟨?_, ?_, ?_, hstart⟩⟩
  all_goals
    rintro rfl
    cases h

theorem keepsBindings_iff_of_path {op : Op} {path : CString}
    (hcheck : checkCanInitialize s.core = .ok) (hpath : op.path p env = some path) :
    KeepsBindings p s ⟨op, env⟩ ↔ ((op.reuses = true → s.core.gBackendLoaded = false) →
      LoadsCleanly p env path s.core true) := by
  rw [keepsBindings_iff_of_initializes (Op.initializes_of_path hpath)]
  refine ⟨fun h => h hcheck path hpath, fun h _ path' hpath' => ?_⟩
  cases hpath.symm.trans hpath'
  exact h

theorem keepsBindings_finalize_iff :
    KeepsBindings p s ⟨.finalize, env⟩ ↔ (s.core.gState = .active → s.core.gRefcount = 1 →
      ∀ lib, ¬ToolsBound s.core.tables lib) :=
  ⟨fun hC => hC.finalize rfl, fun h => ⟨fun _ => h, nofun, nofun, fun _ _ => nofun⟩⟩

theorem keepsBindings_mpitFinalize_iff :
    KeepsBindings p s ⟨.mpitFinalize, env⟩ ↔ s.core.gRefcount ≠ 1 :=
  ⟨fun hC => hC.mpitFinalize rfl, fun h => ⟨nofun, fun _ => h, nofun, fun _ _ => nofun⟩⟩

theorem keepsBindings_mpitInitThread_iff :
    KeepsBindings p s ⟨.mpitInitThread, env⟩ ↔ (s.core.gBackendLoaded = false →
      LoadsCleanly p env (detectBackend p env) s.core false) :=
  ⟨fun hC => hC.mpitInitThread rfl, fun h => ⟨nofun, nofun, fun _ => h, fun _ _ => nofun⟩⟩

end Condition

/-! ## One call -/

section Release

variable {s : Sys}

/-- `unimpi_finalize` leaves a clean state exactly if it keeps the library or no member of the tools
table is bound. -/
theorem noDangling_finalized_iff {env : Env} (hinv : Inv s) (hactive : s.core.gState = .active)
    (hD : NoDangling s.core) : NoDangling (finalizedState env s.core) ↔
      (s.core.gRefcount = 1 → ∀ lib, ¬ToolsBound s.core.tables lib) := by
  have hcount := hinv.refcount_of_active hactive
  by_cases hlast : s.core.gRefcount = 1
  · have hnone : (finalizedState env s.core).gHandle = none :=
      releaseRef_gHandle_of_last (by simp [cleanup, hlast])
    rw [noDangling_iff_of_none hnone]
    simp only [finalizedState, clearBackendIdentity, releaseRef_tables]
    exact ⟨fun h _ lib => (h lib).2, fun h lib => ⟨not_mainBound_cleanup _ lib, h hlast lib⟩⟩
  · have hheld : 1 < (cleanup s.core).gRefcount := by
      simp only [cleanup]
      omega
    refine iff_of_true ?_ fun h => absurd h hlast
    simp only [finalizedState, releaseRef_of_held (Or.inl hheld)]
    exact hD.retained.of_eq rfl rfl rfl

/-- `unimpi_mpit_finalize` leaves a clean state exactly if it keeps the library. -/
theorem noDangling_mpitFinalized_iff (hinv : Inv s) (hpos : 0 < s.unmatched)
    (hplain : ToolsPlain s.core.tables) (hD : NoDangling s.core)
    (hcall : callMtSlot s.core .tFinalize = .ok ()) :
    NoDangling (releaseRef { s.core with gMpitInited := false }) ↔ s.core.gRefcount ≠ 1 := by
  have hcount := hinv.refcount
  by_cases hlast : s.core.gRefcount = 1
  · refine iff_of_false (fun h => ?_) (not_not.2 hlast)
    have hnone : (releaseRef { s.core with gMpitInited := false }).gHandle = none :=
      releaseRef_gHandle_of_last (by simp [hlast])
    obtain ⟨lib, hbound⟩ := toolsBound_of_call hplain hcall
    refine (h.unbound hnone lib).2 ?_
    rw [releaseRef_tables]
    exact hbound
  · have hheld : 1 < s.core.gRefcount := by
      split_ifs at hcount <;> omega
    refine iff_of_true ?_ hlast
    rw [releaseRef_of_held (Or.inl (by exact hheld))]
    exact hD.of_eq rfl rfl rfl

end Release

theorem noDangling_step_iff {p : Platform} {s s' : Sys} {c : Call} (hstep : Step p s c s')
    (hinv : Inv s) (hplain : ToolsPlain s.core.tables) (hD : NoDangling s.core) :
    NoDangling s'.core ↔ KeepsBindings p s c := by
  obtain ⟨op, env⟩ := c
  obtain ⟨core', n⟩ := s'
  obtain ⟨hbal, ⟨ret, hexec⟩, -⟩ := hstep.cases
  dsimp only at hexec hbal ⊢
  cases exec_effect hexec with
  | refused hret hwhy =>
    refine iff_of_true hD ?_
    rcases hwhy with ⟨rfl, hne⟩ | ⟨hop, hwhy⟩
    · exact keepsBindings_finalize_iff.2 fun hactive => absurd hactive hne
    · refine (keepsBindings_iff_of_initializes hop).2 fun hcheck path hpath _ => ?_
      rcases hwhy with hnone | hrefused
      · rw [hnone] at hpath
        cases hpath
      · exact absurd hcheck hrefused
  | loadFailed hcheck hpath hl ho =>
    rw [keepsBindings_iff_of_path hcheck hpath]
    have hfailed := @noDangling_failed_iff p env _ s.core true ho
    constructor
    · intro h _
      exact hfailed.1 (h.of_eq rfl rfl rfl)
    · intro h
      exact (hfailed.2 (h hl)).of_eq rfl rfl rfl
  | initFailed hcheck hpath hready hret =>
    rw [keepsBindings_iff_of_path hcheck hpath]
    rcases initFailedState_cases hinv hready with ⟨hr, hl, heq⟩ | ⟨L, t, ho, hl, heq⟩
    · rw [heq]
      exact iff_of_true hD.retained fun hunloaded =>
        absurd hl (ne_true_of_eq_false (hunloaded hr))
    · rw [heq, noDangling_abandoned_iff ho hret]
      exact ⟨fun h _ => h, fun h => h hl⟩
  | started level hcheck hpath hready hret hlevel =>
    rw [keepsBindings_iff_of_path hcheck hpath]
    refine iff_of_true ((hD.ready hinv.balanced hready).of_eq rfl rfl rfl) fun hunloaded => ?_
    exact hready.loadsCleanly hunloaded fun _ hne => absurd hret hne
  | finalized hactive hcall =>
    rw [keepsBindings_finalize_iff, noDangling_finalized_iff hinv hactive hD]
    exact ⟨fun h _ => h, fun h => h hactive⟩
  | mpitLoadFailed hl ho =>
    rw [keepsBindings_mpitInitThread_iff, noDangling_failed_iff ho]
    exact ⟨fun h _ => h, fun h => h hl⟩
  | mpitStarted hready hcall =>
    rw [keepsBindings_mpitInitThread_iff]
    refine iff_of_true ((hD.ready hinv.balanced hready).of_eq rfl rfl rfl) fun hl => ?_
    exact hready.loadsCleanly (fun _ => hl) fun hstart => absurd hstart Bool.false_ne_true
  | mpitFinalized hcall =>
    rw [keepsBindings_mpitFinalize_iff]
    exact noDangling_mpitFinalized_iff hinv (hbal rfl) hplain hD hcall

/-! ## Results -/

theorem NoDangling.initial : NoDangling State.initial := by
  refine (noDangling_iff_of_none rfl).2 fun lib => ⟨?_, ?_⟩
  all_goals
    rintro ⟨s, addr, hs⟩
    cases hs

/-- Along the calls that keep the bindings no member dangles, and a call leaves no dangling member
exactly if it keeps the bindings. -/
theorem noDangling_iff {p : Platform} {s : Sys}
    (h : Reaches (Step p) (KeepsBindings p) Sys.initial s) :
    NoDangling s.core ∧
      ∀ c s', Step p s c s' → (NoDangling s'.core ↔ KeepsBindings p s c) := by
  have hD : NoDangling s.core := by
    refine h.invariant_with (P := fun s => NoDangling s.core)
      (fun t ht => And.intro (Inv.of_reaches ht) (ToolsPlain.of_reaches ht)) ?_ NoDangling.initial
    exact fun t c u hJ hC hstep hclean =>
      (noDangling_step_iff hstep hJ.1 hJ.2 hclean).2 hC
  exact ⟨hD, fun c s' hstep =>
    noDangling_step_iff hstep (Inv.of_reaches h) (ToolsPlain.of_reaches h) hD⟩

/-- A library without functions of the tools interface. -/
def plainLibrary : Library :=
  .ofSymbols 2 ["MPI_Init", "MPI_Finalize", "MPI_Comm_size", "MPI_Comm_rank", "MPIR_Dup_fn"]

theorem plainLibrary_exports (s : MtSlot) : plainLibrary.exports s.symbol = false := by
  cases s <;> rfl

/-- Its start may fail. -/
theorem noDangling_iff_plain : ∃ s,
    Step .linux Sys.initial ⟨.init, .offering (some plainLibrary) 1⟩ s ∧ NoDangling s.core ∧
    s.core.linker.closed = [2] := by
  have hrun : ((Sys.initial.after .linux ⟨.init, .offering (some plainLibrary) 1⟩).map fun s =>
      s.core.linker.closed) = some [2] := by decide +kernel
  obtain ⟨s, hs, hclosed⟩ := Option.map_eq_some_iff.1 hrun
  have hinit := noDangling_iff (p := .linux) (.refl : Reaches _ _ Sys.initial Sys.initial)
  refine ⟨s, hs, (hinit.2 _ s hs).2 ((keepsBindings_iff_of_path rfl rfl).2 fun _ => ?_), hclosed⟩
  have hcode : (loadOutcome .linux (.offering (some plainLibrary) 1) "libmpi.so.40".toList
      State.initial).code = .ok := by decide +kernel
  obtain ⟨t, ho⟩ := exists_filled_offering hcode
  have hpath : detectBackend .linux (.offering (some plainLibrary) 1) =
      "libmpi.so.40".toList := rfl
  rw [LoadsCleanly, hpath]
  simp only [Sys.initial, ho]
  exact fun _ _ => plainLibrary_exports

/-- After the last release of the tools interface, its table still holds the closed library. -/
theorem not_noDangling_released : ¬∀ s,
    Reaches (Step .linux) (fun _ _ => True) Sys.initial s → NoDangling s.core := by
  have hrun : ((Sys.initial.afterAll .linux
      [⟨.mpitInitThread, .offering (some mpichLibrary) 0⟩,
        ⟨.mpitFinalize, .offering none 0⟩]).map fun s =>
      (s.core.tables.unimpiMt .tFinalize, decide (s.core.linker.IsOpen 1))) =
      some (.native 1 7, false) := by decide +kernel
  obtain ⟨s, hs, hpair⟩ := Option.map_eq_some_iff.1 hrun
  obtain ⟨hbound, hclosed⟩ := Prod.mk.inj hpair
  intro h
  have hclean := h s (reaches_afterAll .refl (fun _ _ _ => trivial) hs)
  exact of_decide_eq_false hclosed (hclean.tools_open 1 ⟨.tFinalize, 7, hbound⟩)

end UniMPI
