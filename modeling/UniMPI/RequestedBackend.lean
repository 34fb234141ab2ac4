import UniMPI.Identity

/-!
# Asking for a backend by name

A backend name selects the file name of a library, and the backend that is bound is
the one whose symbols the library shows. Nothing compares the two: `libmpi.so`,
which stands for Intel MPI, is MPICH or Open MPI on other installations, and a
library that the tools interface has loaded is reused whatever is asked for.

A failed call should leave nothing of another backend bound, in either table or in the
run-time values, but the exits clear `unimpi` and three values only.

`requested_honoured_iff` : a call that asks for a backend is honoured exactly if the
library under the name is that backend's, or the reused one is, or what a failed call
has bound for another backend was in place before.
-/

namespace UniMPI

open Runs

/-- `unimpi_get_backend_type`. -/
def getBackendType (st : State) : BackendType :=
  st.gBackendType

/-- The call asks for a backend of the table by its name. -/
structure Requests (c : Call) (i : BackendInfo) : Prop where
  known : i ∈ unimpiBackends
  named : c.op = .initWith (some i.name) ∨
    (c.op = .init ∨ ∃ required provided, c.op = .initThread required provided) ∧
      nonempty c.env.unimpiLibrary = none ∧ c.env.unimpiBackend = some i.name

/-- Every member and every value of the tables is as it was, or as in a fresh process. -/
structure KeepsOrClears (t t' : Tables) : Prop where
  members : ∀ s, t'.unimpi s = t.unimpi s ∨ t'.unimpi s = .null
  tools : ∀ s, t'.unimpiMt s = t.unimpiMt s ∨ t'.unimpiMt s = .null
  values : ∀ g, t'.globals g = t.globals g ∨ t'.globals g = g.initial

/-- A call has bound no other backend than `b`: what it has opened is closed again and not held, and
unless it has found a library of `b`, both tables and the values are cleared or as before. -/
structure BindsNoOther (p : Platform) (b : BackendType) (c : Call) (st st' : State) : Prop where
  closed : ∀ h, st'.linker.IsOpen h → st.linker.IsOpen h
  held : st'.gHandle = none ∨ st'.gHandle = st.gHandle
  tables : (∀ path L, c.loads p st = some path → loaderLoad c.env path = .ok L →
    identifyBackend p L ≠ b) → KeepsOrClears st.tables st'.tables

/-- A start has bound the backend asked for, and a failed call no other one. -/
structure Honours (p : Platform) (i : BackendInfo) (c : Call) (st : State) (ret : ReturnCode)
    (st' : State) : Prop where
  started : ret = .ok → getBackendType st' = i.type ∧ getBackendName st' = some i.name
  failed : ret ≠ .ok → BindsNoOther p i.type c st st'

/-- The variables that `unimpi_vtable_cleanup` resets. -/
def Global.resetByCleanup : Global → Bool
  | .commWorld | .commSelf | .statusIgnore => true
  | _ => false

/-- What a failing Open MPI fill binds for `L` is in place already, or nothing. -/
def StartInPlace (t : Tables) (L : Library) : Prop :=
  (∀ s : Slot, s.afterComms = false →
    openmpiEntry L s = t.unimpi s ∨ openmpiEntry L s = .null) ∧
  ∀ g v, openmpiCallback L g = some v → v = t.globals g ∨ v = g.initial

/-- What a fill of `b` for `L` binds and a cleanup keeps is in place already, or nothing. -/
def RestInPlace (t : Tables) (b : BackendType) (L : Library) : Prop :=
  (∀ s : MtSlot, L.bind s.symbol = t.unimpiMt s ∨ L.bind s.symbol = .null) ∧
  ∀ g v, g.resetByCleanup = false → backendValue b L g = some v →
    v = t.globals g ∨ v = g.initial

/-- A start gets a library of the backend asked for: the one that is loaded by name is identified as
such, or it does not start and what is left of it is in place already, and the one that is reused
was. -/
structure FindsRequested (p : Platform) (i : BackendInfo) (c : Call) (st : State) : Prop where
  filled : ∀ L t, c.loads p st = some i.libName →
    loadOutcome p c.env i.libName st = .filled L t → identifyBackend p L = i.type ∨
      c.env.mpiInit ≠ 0 ∧ RestInPlace st.tables (identifyBackend p L) L
  unfilled : ∀ L, c.loads p st = some i.libName →
    loadOutcome p c.env i.libName st = .unfilled L → identifyBackend p L = i.type ∨
      StartInPlace st.tables L
  reused : c.loads p st = none → c.op.path p c.env ≠ none → checkCanInitialize st = .ok →
    c.env.mpiInit = 0 → getBackendType st = i.type ∧ getBackendName st = some i.name

/-! ## Names and types -/

section Table

variable {i : BackendInfo} (h : i ∈ unimpiBackends)

include h

theorem libraryFor_name : libraryFor i.name = i.libName := by
  have hall : ∀ i ∈ unimpiBackends, libraryFor i.name = i.libName := by decide
  exact hall i h

theorem backendName_type : backendName i.type = some i.name := by
  have hall : ∀ i ∈ unimpiBackends, backendName i.type = some i.name := by decide
  exact hall i h

theorem name_ne_nil : i.name ≠ [] := by
  have hall : ∀ i ∈ unimpiBackends, i.name ≠ [] := by decide
  exact hall i h

end Table

section Requests

variable {p : Platform} {c : Call} {i : BackendInfo} {st : State}

theorem Requests.detectBackend (h : Requests c i) (hlibrary : nonempty c.env.unimpiLibrary = none)
    (hname : c.env.unimpiBackend = some i.name) : detectBackend p c.env = i.libName := by
  have hkeep : nonempty c.env.unimpiBackend = some i.name := by
    rw [hname]
    cases hi : i.name with
    | nil => exact absurd hi (name_ne_nil h.known)
    | cons _ _ => rfl
  rw [UniMPI.detectBackend, hlibrary, hkeep]
  exact libraryFor_name h.known

/-- A call that asks for a backend asks for its library name. -/
theorem Requests.path_eq (h : Requests c i) {path : CString}
    (hpath : c.op.path p c.env = some path) : path = i.libName := by
  rcases h.named with hop | ⟨hop | ⟨required, provided, hop⟩, hlibrary, hname⟩
  · rw [hop] at hpath
    exact (Option.some.inj hpath).symm.trans (libraryFor_name h.known)
  · rw [hop] at hpath
    exact (Option.some.inj hpath).symm.trans (h.detectBackend hlibrary hname)
  · rw [hop, Op.path] at hpath
    split_ifs at hpath
    exact (Option.some.inj hpath).symm.trans (h.detectBackend hlibrary hname)

theorem Requests.initializes (h : Requests c i) : c.op.initializes = true := by
  rcases h.named with hop | ⟨hop | ⟨required, provided, hop⟩, -⟩ <;> rw [hop] <;> rfl

end Requests

/-! ## What failures leave in the tables -/

section KeepsOrClears

variable {t t' : Tables} {b : BackendType} {L : Library}

theorem KeepsOrClears.refl (t : Tables) : KeepsOrClears t t :=
  ⟨fun _ => Or.inl rfl, fun _ => Or.inl rfl, fun _ => Or.inl rfl⟩

theorem keepsOrClears_vtableInitStart (t : Tables) : KeepsOrClears t (vtableInitStart t) := by
  refine ⟨fun _ => Or.inl rfl, fun _ => Or.inr rfl, fun g => ?_⟩
  by_cases hg : g = .statusIgnore
  · subst hg
    exact Or.inr rfl
  · exact Or.inl (vtableInitStart_globals hg)

theorem keepsOrClears_vtableCleanup (t : Tables) : KeepsOrClears t (vtableCleanup t) := by
  refine ⟨fun _ => Or.inr rfl, fun _ => Or.inl rfl, fun g => ?_⟩
  cases g <;> first | exact Or.inl rfl | exact Or.inr rfl

/-- A failing Open MPI fill. -/
theorem keepsOrClears_openmpiFillStart_iff :
    KeepsOrClears t (openmpiFillStart L (vtableInitStart t)) ↔ StartInPlace t L := by
  have hstart := keepsOrClears_vtableInitStart t
  constructor
  · intro h
    refine ⟨fun s hs => ?_, fun g v hv => ?_⟩
    · have hmember := h.members s
      simp only [openmpiFillStart, hs, Bool.false_eq_true, if_false] at hmember
      exact hmember
    · have hvalue := h.values g
      simp only [openmpiFillStart, assign_of_some hv] at hvalue
      exact hvalue
  · rintro ⟨hmembers, hvalues⟩
    refine ⟨fun s => ?_, fun _ => Or.inr rfl, fun g => ?_⟩
    · cases hs : s.afterComms with
      | true => exact Or.inl (by simp only [openmpiFillStart, hs, if_true]; rfl)
      | false => simpa only [openmpiFillStart, hs, Bool.false_eq_true, if_false] using hmembers s hs
    · cases hv : openmpiCallback L g with
      | none => simpa only [openmpiFillStart, assign_of_none hv] using hstart.values g
      | some v => simpa only [openmpiFillStart, assign_of_some hv] using hvalues g v hv

theorem vtableCleanup_kept {g : Global} (hg : g.resetByCleanup = false) :
    (vtableCleanup t).globals g = t.globals g := by
  cases g <;> first | rfl | cases hg

theorem vtableCleanup_reset {g : Global} (hg : g.resetByCleanup = true) :
    (vtableCleanup t).globals g = g.initial := by
  cases g <;> first | rfl | cases hg

/-- A fill that is cleaned up. -/
theorem keepsOrClears_cleanup_fill_iff (h : fill b L (vtableInitStart t) = some t') :
    KeepsOrClears t (vtableCleanup t') ↔ RestInPlace t b L := by
  have htools : ∀ s, (vtableCleanup t').unimpiMt s = L.bind s.symbol := fun s =>
    congrFun (fill_unimpiMt h) s
  have hassigned : ∀ g v, g.resetByCleanup = false → backendValue b L g = some v →
      (vtableCleanup t').globals g = v := fun g v hg hv => by
    rw [vtableCleanup_kept hg, fill_global_of_assigned h hv]
  constructor
  · intro hkeeps
    refine ⟨fun s => ?_, fun g v hg hv => ?_⟩
    · rw [← htools]
      exact hkeeps.tools s
    · rw [← hassigned g v hg hv]
      exact hkeeps.values g
  · rintro ⟨hbound, hvalues⟩
    refine ⟨fun _ => Or.inr rfl, fun s => ?_, fun g => ?_⟩
    · rw [htools]
      exact hbound s
    · cases hg : g.resetByCleanup with
      | true => exact Or.inr (vtableCleanup_reset hg)
      | false =>
        cases hv : backendValue b L g with
        | none =>
          rw [vtableCleanup_kept hg,
            fill_global_of_unassigned h (backendValue_eq_none_iff.1 hv)]
          exact Or.inl rfl
        | some v =>
          rw [hassigned g v hg hv]
          exact hvalues g v hg hv

end KeepsOrClears

/-! ## The calls that fail -/

theorem BindsNoOther.refl (p : Platform) (b : BackendType) (c : Call) (st : State) :
    BindsNoOther p b c st st :=
  ⟨fun _ h => h, Or.inr rfl, fun _ => .refl _⟩

section OneCall

variable {p : Platform} {s : Sys} {i : BackendInfo} {op : Op} {env : Env} {st' : State}
  {path : CString} {ret : ReturnCode}

/-- A call that is refused asks for nothing that it could find. -/
theorem findsRequested_of_refused {st : State}
    (h : op = .finalize ∧ st.gState ≠ .active ∨
      op.initializes ∧ (op.path p env = none ∨ checkCanInitialize st ≠ .ok)) :
    FindsRequested p i ⟨op, env⟩ st := by
  have hloads := Call.loads_of_refused h
  refine ⟨fun L t hsome => ?_, fun L hsome => ?_, fun _ hpath hcheck => ?_⟩
  · exact absurd hsome (Call.loads_ne_some hloads _)
  · exact absurd hsome (Call.loads_ne_some hloads _)
  · rcases h with ⟨rfl, -⟩ | ⟨-, hnone | hrefused⟩
    · exact absurd rfl hpath
    · exact absurd hnone hpath
    · exact absurd hcheck hrefused

/-- A failed loading binds another backend exactly if it has filled part of the tables for it. -/
theorem honours_loadFailed_iff {st : State} (hloads : Call.loads p ⟨op, env⟩ st = some i.libName)
    (ho : (loadOutcome p env i.libName st).code ≠ .ok) :
    Honours p i ⟨op, env⟩ st (loadOutcome p env i.libName st).code
      { (loadOutcome p env i.libName st).apply p i.libName st with gState := .initFailed } ↔
      FindsRequested p i ⟨op, env⟩ st := by
  have hclosed : ∀ k, ((loadOutcome p env i.libName st).apply p i.libName st).linker.IsOpen k →
      st.linker.IsOpen k := fun k => (LoadOutcome.isOpen_of_failed ho).1
  have hheld : ((loadOutcome p env i.libName st).apply p i.libName st).gHandle = none :=
    LoadOutcome.apply_gHandle_of_failed ho
  constructor
  · intro hhonours
    refine ⟨fun L t _ hfilled => ?_, fun L _ hunfilled => ?_, fun hnone => ?_⟩
    · rw [hfilled] at ho
      exact absurd rfl ho
    · refine or_iff_not_imp_left.2 fun hother => ?_
      have hkept := (hhonours.failed ho).tables fun path L' hsome hload => by
        obtain rfl := Option.some.inj (hloads.symm.trans hsome)
        obtain rfl : L = L' :=
          Except.ok.inj ((loaderLoad_of_unfilled hunfilled).symm.trans hload)
        exact hother
      rw [hunfilled] at hkept
      exact keepsOrClears_openmpiFillStart_iff.1 hkept
    · exact absurd hloads (Call.loads_ne_some hnone _)
  · intro hfinds
    refine ⟨fun hok => absurd hok ho, fun _ => ⟨hclosed, Or.inl hheld, fun hother => ?_⟩⟩
    cases hout : loadOutcome p env i.libName st with
    | notLoaded ret => exact .refl _
    | missingCore L => exact keepsOrClears_vtableInitStart _
    | refused L ret => exact keepsOrClears_vtableInitStart _
    | filled L t =>
      rw [hout] at ho
      exact absurd rfl ho
    | unfilled L =>
      have hload := loaderLoad_of_unfilled hout
      rcases hfinds.unfilled L hloads hout with htype | hplace
      · exact absurd htype (hother _ L hloads hload)
      · exact keepsOrClears_openmpiFillStart_iff.2 hplace

/-- A start is honoured exactly if the library it uses is the right one. -/
theorem honours_started_iff {level : Int} (hi : i ∈ unimpiBackends)
    (hcheck : checkCanInitialize s.core = .ok) (hpath : op.path p env = some i.libName)
    (hready : Ready p env i.libName s.core op.reuses st') (hret : env.mpiInit = 0) :
    Honours p i ⟨op, env⟩ s.core .ok { st' with
        gRefcount := st'.gRefcount + 1, gBackendLoaded := true, gState := .active,
        gThreadLevel := level } ↔
      FindsRequested p i ⟨op, env⟩ s.core := by
  have hpath' : op.path p env ≠ none := by rw [hpath]; exact Option.some_ne_none _
  rcases hready.loads_cases hcheck hpath with ⟨hnone, rfl⟩ | ⟨L, t, loaded, hsome, ho, rfl⟩
  · constructor
    · intro hhonours
      exact ⟨fun _ _ hsome => absurd hsome (Call.loads_ne_some hnone _),
        fun _ hsome => absurd hsome (Call.loads_ne_some hnone _),
        fun _ _ _ _ => hhonours.started rfl⟩
    · intro hfinds
      exact ⟨fun _ => hfinds.reused hnone hpath' hcheck hret, fun h => absurd rfl h⟩
  · constructor
    · intro hhonours
      refine ⟨fun L' t' _ ho' => ?_, fun L' _ ho' => ?_, fun hnone => ?_⟩
      · obtain ⟨rfl, rfl⟩ := LoadOutcome.filled.inj (ho.symm.trans ho')
        exact Or.inl (hhonours.started rfl).1
      · exact absurd (ho.symm.trans ho') LoadOutcome.noConfusion
      · exact absurd hsome (Call.loads_ne_some hnone _)
    · intro hfinds
      have htype : identifyBackend p L = i.type :=
        (hfinds.filled L t hsome ho).resolve_right fun h => h.1 hret
      refine ⟨fun _ => ⟨htype, ?_⟩, fun h => absurd rfl h⟩
      exact (congrArg backendName htype).trans (backendName_type hi)

/-- A start that the backend refuses leaves another backend bound exactly if it has loaded one whose
tools interface or values are not in place already. -/
theorem honours_initFailed_iff {st : State} (hst : st = s.core) (hinv : Inv s)
    (hcheck : checkCanInitialize st = .ok) (hpath : op.path p env = some i.libName)
    (hready : Ready p env i.libName s.core op.reuses st') (hret : env.mpiInit ≠ 0) :
    Honours p i ⟨op, env⟩ st .errBackendLoad (initFailedState op.reuses st') ↔
      FindsRequested p i ⟨op, env⟩ st := by
  subst hst
  rcases initFailedState_cases hinv hready with ⟨hreuses, hl, heq⟩ | ⟨L, t, ho, hfresh, heq⟩
  · -- the loaded library stays, and the tables lose what was in them
    have hnone : Call.loads p ⟨op, env⟩ s.core = none := by
      simp [Call.loads_of_path hpath, hreuses, hl]
    rw [heq]
    refine iff_of_true ⟨ReturnCode.noConfusion, fun _ => ⟨fun _ h => h, Or.inr rfl, fun _ => ?_⟩⟩
      ⟨fun _ _ hsome => absurd hsome (Call.loads_ne_some hnone _),
        fun _ hsome => absurd hsome (Call.loads_ne_some hnone _), fun _ _ _ hok => absurd hok hret⟩
    exact keepsOrClears_vtableCleanup _
  · have hsome := Call.loads_of_fresh hcheck hpath hfresh
    obtain ⟨hload, -, -, hfill⟩ := loaderLoad_of_filled ho
    rw [heq]
    constructor
    · intro hhonours
      refine ⟨fun L' t' _ ho' => ?_, fun L' _ ho' => ?_, fun _ _ _ hok => absurd hok hret⟩
      · obtain ⟨rfl, rfl⟩ := LoadOutcome.filled.inj (ho.symm.trans ho')
        refine or_iff_not_imp_left.2 fun hother => ⟨hret, ?_⟩
        refine (keepsOrClears_cleanup_fill_iff hfill).1
          ((hhonours.failed ReturnCode.noConfusion).tables fun path L' hsome' hload' => ?_)
        obtain rfl := Option.some.inj (hsome.symm.trans hsome')
        obtain rfl : L = L' := Except.ok.inj (hload.symm.trans hload')
        exact hother
      · exact absurd (ho.symm.trans ho') LoadOutcome.noConfusion
    · intro hfinds
      refine ⟨ReturnCode.noConfusion, fun _ => ⟨fun k => (Linker.isOpen_openLib_closeLib _ _ _).1,
        Or.inl rfl, fun hother => ?_⟩⟩
      rcases hfinds.filled L t hsome ho with htype | ⟨-, hplace⟩
      · exact absurd htype (hother _ L hsome hload)
      · exact (keepsOrClears_cleanup_fill_iff hfill).2 hplace

end OneCall

/-! ## Results -/

/-- In every reachable state, a call that asks for a backend by its name is honoured if and only if
the library it finds under that name, or reuses, is identified as that backend, or does not start
and leaves nothing in the tables that was not in place. -/
theorem requested_honoured_iff {p : Platform} {s : Sys} {c : Call} {i : BackendInfo}
    {ret : ReturnCode} {st' : State} (h : Reaches (Step p) (fun _ _ => True) Sys.initial s)
    (hreq : Requests c i) (hexec : exec p c.op c.env s.core = .ok (ret, st')) :
    Honours p i c s.core ret st' ↔ FindsRequested p i c s.core := by
  have hinv := Inv.of_reaches h
  have hinit := hreq.initializes
  obtain ⟨op, env⟩ := c
  dsimp only at hexec hinit
  cases exec_effect hexec with
  | refused hret hwhy =>
    exact iff_of_true ⟨fun hok => absurd hok hret, fun _ => .refl ..⟩
      (findsRequested_of_refused hwhy)
  | loadFailed hcheck hpath hl ho =>
    obtain rfl := hreq.path_eq hpath
    exact honours_loadFailed_iff (Call.loads_of_fresh hcheck hpath hl) ho
  | initFailed hcheck hpath hready hret =>
    obtain rfl := hreq.path_eq hpath
    exact honours_initFailed_iff rfl hinv hcheck hpath hready hret
  | started level hcheck hpath hready hret hlevel =>
    obtain rfl := hreq.path_eq hpath
    exact honours_started_iff hreq.known hcheck hpath hready hret
  | finalized | mpitLoadFailed | mpitStarted | mpitFinalized => cases hinit

/-- The entry of a backend in the table. -/
def mpichInfo : BackendInfo :=
  ⟨.mpich, "mpich".toList, "libmpich.so".toList, none⟩

def intelmpiInfo : BackendInfo :=
  ⟨.intelmpi, "intelmpi".toList, "libmpi.so".toList, none⟩

/-- Asking for MPICH where `libmpich.so` is MPICH. -/
theorem requested_honoured_iff_mpich : ∃ st',
    exec .linux (.initWith (some mpichInfo.name)) (.offering (some mpichLibrary) 0) .initial =
      .ok (.ok, st') ∧
    getBackendType st' = .mpich ∧ getBackendName st' = some "mpich".toList := by
  obtain ⟨st', hexec⟩ := @exists_ok_of_codeOf
    (exec .linux (.initWith (some mpichInfo.name)) (.offering (some mpichLibrary) 0) .initial) .ok
    (by decide +kernel)
  let c : Call := ⟨.initWith (some mpichInfo.name), .offering (some mpichLibrary) 0⟩
  have hreq : Requests c mpichInfo := ⟨by simp [unimpiBackends, mpichInfo], Or.inl rfl⟩
  have hload : loaderLoad c.env mpichInfo.libName = .ok mpichLibrary := rfl
  have hloads : Call.loads .linux c State.initial ≠ none := Option.some_ne_none _
  have hfinds : FindsRequested .linux mpichInfo c State.initial := by
    refine ⟨fun L t _ ho => ?_, fun L _ ho => ?_, fun hnone => absurd hnone hloads⟩
    · obtain rfl := Except.ok.inj (hload.symm.trans (loaderLoad_of_filled ho).1)
      exact Or.inl (by decide +kernel)
    · obtain rfl : L = mpichLibrary :=
        Except.ok.inj ((loaderLoad_of_unfilled ho).symm.trans hload)
      exact Or.inl (by decide +kernel)
  have hhonours := (requested_honoured_iff (s := Sys.initial) .refl hreq hexec).2 hfinds
  exact ⟨st', hexec, hhonours.started rfl⟩

/-- Asking for Intel MPI where `libmpi.so` is Open MPI starts Open MPI. -/
theorem not_requested_honoured_intelmpi : ¬∀ c i ret st', Requests c i →
    exec .linux c.op c.env State.initial = .ok (ret, st') →
    Honours .linux i c State.initial ret st' := by
  let env : Env :=
    { Env.offering (some openmpiFull) 0 with unimpiBackend := some intelmpiInfo.name }
  have hrun : (exec .linux .init env State.initial).toOption.map
      (fun r => (r.1, r.2.gBackendType)) = some (.ok, .openmpi) := by decide +kernel
  have hreq : Requests ⟨.init, env⟩ intelmpiInfo :=
    ⟨by simp [unimpiBackends, intelmpiInfo], Or.inr ⟨Or.inl rfl, rfl, rfl⟩⟩
  intro h
  cases hexec : exec .linux .init env State.initial with
  | error f =>
    rw [hexec] at hrun
    cases hrun
  | ok r =>
    obtain ⟨ret, st'⟩ := r
    rw [hexec] at hrun
    obtain ⟨hret, htype⟩ := Prod.mk.inj (Option.some.inj hrun)
    have hstarted := (h ⟨.init, env⟩ intelmpiInfo ret st' hreq hexec).started hret
    exact absurd (htype.symm.trans hstarted.1) (by decide)

end UniMPI
