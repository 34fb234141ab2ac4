import UniMPI.Diagnostics
import UniMPI.LifecycleOrder
import UniMPI.RequestedBackend

/-!
# Programs

A program does more with the facade than start and end it. It calls MPI and the tools
interface through the members of the two tables, asks the facade about itself and has
it diagnose libraries. `Sharing.perform` says what the abstract facade does then: a
member ends in the function of the library that is held, and a question is answered
from who holds it.

`programs_refine` : a program gets the same from the facade, whatever it does in which
order, as long as it leaves the tables and the identity alone while nobody holds a
library (`Admits`). The members for arrays of handles that the library lacks are left
out, since an earlier library may have left its own there, and so is
`unimpi_mt_initialized`, which nested initialisations make untrue. `as_good_as_new` : so
where nobody holds a library and MPI was not finalized, whatever has failed before, a
program gets what it gets in a fresh process.
-/

namespace UniMPI

open Runs

/-! ## What a program does -/

/-- A question to the facade. -/
inductive Query
  | mpiInitialized (flag : Bool)
  | mpiFinalized (flag : Bool)
  | isInitialized
  | backendType
  | backendName
  | libraryPath

inductive Action
  | call (c : Call)
  | diagnose (env : Env) (libPath : Option CString)
  /-- A call through a member of `unimpi`. -/
  | mpi (s : Slot)
  /-- A call through a member of `unimpi_mt`. -/
  | tools (s : MtSlot)
  | ask (q : Query)

/-- What a program gets. -/
inductive Observation
  | code (ret : ReturnCode)
  | diagnosis (d : Diagnosis)
  /-- The call has ended in a function. -/
  | reached (e : Entry)
  /-- A return code and what is written to the flag. -/
  | flag (answer : ReturnCode × Option Int)
  | int (value : Int)
  | type (b : BackendType)
  | string (text : Option CString)
  deriving DecidableEq

/-! ## The facade -/

def Query.observe (q : Query) (st : State) : Observation :=
  match q with
  | mpiInitialized flag => .flag (UniMPI.mpiInitialized flag st)
  | mpiFinalized flag => .flag (UniMPI.mpiFinalized flag st)
  | isInitialized => .int (UniMPI.isInitialized st)
  | backendType => .type (getBackendType st)
  | backendName => .string (getBackendName st)
  | libraryPath => .string (getLibraryPath st)

/-- What the program gets and the state then; there is none after a fault. -/
def Sys.perform (p : Platform) (s : Sys) : Action → Option (Observation × Sys)
  | .call c => (s.respond p c).map fun r => (.code r.1, r.2)
  | .diagnose env libPath =>
    some (.diagnosis (diagnoseBackend p env libPath s.core).1, s.diagnosed p env libPath)
  | .mpi slot =>
    match callSlot s.core slot with
    | .ok _ => some (.reached (s.core.tables.target slot), s)
    | .error _ => none
  | .tools slot =>
    match callMtSlot s.core slot with
    | .ok _ => some (.reached (s.core.tables.unimpiMt slot), s)
    | .error _ => none
  | .ask q => some (q.observe s.core, s)

/-! ## The abstract facade -/

/-- The function that a member of MPI ends in when a library is held. -/
def Library.provides (p : Platform) (L : Library) (s : Slot) : Entry :=
  match s.kind with
  | .native | .requestArray | .typeArray => L.bind s.symbol
  | .statusReader => .statusReader (identifyBackend p L)
  | .aint => if L.exports s.symbol then L.bind s.symbol else .localAint

namespace Sharing

/-- MPI has been started, and may have ended. -/
def begun : Sharing → Bool
  | .closed rest => rest ≠ .idle
  | .tools rest _ _ _ => rest ≠ .idle
  | .active _ _ => true

/-- MPI has ended well. -/
def ended : Sharing → Bool
  | .closed rest => rest = .finalized
  | .tools rest _ _ _ => rest = .finalized
  | .active _ _ => false

def isActive : Sharing → Bool
  | .active _ _ => true
  | _ => false

/-- The library that MPI can be called in. -/
def serving (a : Sharing) : Option Holding :=
  if a.bound then a.held else none

def observe (p : Platform) (a : Sharing) : Query → Observation
  | .mpiInitialized flag =>
    .flag (if flag then (.ok, some a.begun.toNat) else (.errInvalidArgument, none))
  | .mpiFinalized flag =>
    .flag (if flag then (.ok, some a.ended.toNat) else (.errInvalidArgument, none))
  | .isInitialized => .int a.isActive.toNat
  | .backendType => .type (a.serving.elim .unknown fun held => identifyBackend p held.library)
  | .backendName =>
    .string (a.serving.bind fun held => backendName (identifyBackend p held.library))
  | .libraryPath => .string (a.serving.map Holding.path)

/-- A call that ends in a function, if there is one. -/
def reach (a : Sharing) (e : Entry) : Option (Observation × Sharing) :=
  if e = .null then none else some (.reached e, a)

/-- What the program gets, and who holds the library then. A diagnosis is as in a fresh process. -/
def perform (p : Platform) (a : Sharing) : Action → Option (Observation × Sharing)
  | .call c => (a.respond p c).map fun r => (.code r.1, r.2)
  | .diagnose env libPath => some (.diagnosis (diagnoseBackend p env libPath .initial).1, a)
  | .mpi slot => a.serving.bind fun held => a.reach (held.library.provides p slot)
  | .tools slot => a.held.bind fun held => a.reach (held.library.bind slot.symbol)
  | .ask q => some (a.observe p q, a)

/-- The program keeps to what the facade offers. -/
def Admits (a : Sharing) : Action → Prop
  | .call c => a.Permits c
  | .mpi slot => ∃ held ∈ a.held, slot.kind = .typeArray → held.library.exports slot.symbol
  | .tools _ | .ask .backendType | .ask .backendName | .ask .libraryPath => a.held.isSome
  | .diagnose _ _ | .ask (.mpiInitialized _) | .ask (.mpiFinalized _) | .ask .isInitialized => True

end Sharing

/-! ## What a held library has filled -/

/-- The members and the backend type are those of the library, but for the members that a fill may
leave as they were. -/
structure Wired (p : Platform) (L : Library) (st : State) : Prop where
  backendType : getBackendType st = identifyBackend p L
  members : ∀ s : Slot, (s.kind = .typeArray → L.exports s.symbol = true) →
    st.tables.target s = L.provides p s

/-- MPI has gone. -/
structure Stripped (st : State) : Prop where
  backendType : getBackendType st = .unknown
  identity : st.gBackendIdentity = .cleared
  members : st.tables.unimpi = fun _ => .null

/-- The library behind the handle has filled the members, or they are lost. -/
def Furnished (p : Platform) (st : State) : Prop :=
  ∀ L, st.gHandle = some L → Wired p L st ∨ Stripped st

section Furnished

variable {p : Platform} {env : Env} {path : CString} {st st' : State} {L : Library}
  {t t' : Tables} {s : Slot}

theorem target_legacyFill {b : BackendType} (hb : identifyBackend p L = b)
    (value : Library → Global → Option Int) (t : Tables)
    (hs : s.kind = .typeArray → L.exports s.symbol = true) :
    (legacyFill b value L t).target s = L.provides p s := by
  have hrecorded : (legacyFill b value L t).unimpi s = .wrapper b →
      s.kind = .requestArray ∨ s.kind = .typeArray →
      (legacyFill b value L t).target s = L.bind s.symbol := by
    intro hentry hkind
    rw [Tables.target_of_wrapper hentry]
    rcases hkind with hkind | hkind <;> simp [legacyFill, legacyNative, hkind]
  unfold Library.provides
  cases hkind : s.kind with
  | native => exact Tables.target_of_bind (by simp [legacyFill, legacyEntry, hkind])
  | requestArray =>
    exact hrecorded (by simp [legacyFill, legacyEntry, hkind]) (Or.inl hkind)
  | typeArray =>
    exact hrecorded (by simp [legacyFill, legacyEntry, hkind, hs hkind]) (Or.inr hkind)
  | statusReader => simp [Tables.target, legacyFill, legacyEntry, hkind, hb]
  | aint =>
    cases hexports : L.exports s.symbol with
    | true => exact Tables.target_of_bind (by simp [legacyFill, legacyEntry, hkind, hexports])
    | false => simp [Tables.target, legacyFill, legacyEntry, hkind, hexports]

theorem target_openmpiEntry (hb : identifyBackend p L = .openmpi)
    (h : t.unimpi s = openmpiEntry L s) : t.target s = L.provides p s := by
  unfold openmpiEntry at h
  unfold Library.provides
  cases hkind : s.kind with
  | native | requestArray | typeArray => exact Tables.target_of_bind (by simpa [hkind] using h)
  | statusReader => simp [Tables.target, h, hkind, hb]
  | aint =>
    cases hexports : L.exports s.symbol with
    | true => exact Tables.target_of_bind (by simpa [hkind, hexports] using h)
    | false => simp [Tables.target, h, hkind, hexports]

/-- A fill lets the members end where its library provides. -/
theorem target_of_fill (hunknown : identifyBackend p L ≠ .unknown)
    (hfill : fill (identifyBackend p L) L t = some t')
    (hs : s.kind = .typeArray → L.exports s.symbol = true) : t'.target s = L.provides p s := by
  cases hb : identifyBackend p L with
  | unknown => exact absurd hb hunknown
  | openmpi =>
    rw [hb] at hfill
    obtain ⟨-, rfl⟩ := fill_openmpi_eq_some_iff.1 hfill
    exact target_openmpiEntry hb rfl
  | mpich | intelmpi | msmpi =>
    rw [hb] at hfill
    cases hfill
    exact target_legacyFill hb _ t hs

theorem wired_of_filled (ho : loadOutcome p env path st = .filled L t) :
    Wired p L ((LoadOutcome.filled L t).apply p path st) where
  backendType := rfl
  members s hs := by
    obtain ⟨-, -, hcheck, hfill⟩ := loaderLoad_of_filled ho
    exact target_of_fill (ne_unknown_of_check hcheck) hfill hs

theorem Furnished.congr (h : Furnished p st) (hhandle : st'.gHandle = st.gHandle)
    (htype : st'.gBackendType = st.gBackendType)
    (hidentity : st'.gBackendIdentity = st.gBackendIdentity)
    (htables : st'.tables = st.tables) : Furnished p st' := by
  intro L hL
  refine (h L (hhandle ▸ hL)).imp (fun hw => ⟨htype.trans hw.backendType, ?_⟩) fun hs => ?_
  · rw [htables]
    exact hw.members
  · exact ⟨htype.trans hs.backendType, hidentity.trans hs.identity, by rw [htables, hs.members]⟩

theorem furnished_of_none (h : st.gHandle = none) : Furnished p st := by
  intro L hL
  rw [h] at hL
  cases hL

theorem Furnished.releaseRef (h : Furnished p st) : Furnished p (releaseRef st) := by
  unfold UniMPI.releaseRef
  dsimp only
  split_ifs
  · exact furnished_of_none rfl
  · exact h.congr rfl rfl rfl rfl

theorem releaseRef_gBackendType (st : State) :
    (UniMPI.releaseRef st).gBackendType = st.gBackendType := by
  unfold UniMPI.releaseRef
  dsimp only
  split_ifs <;> rfl

theorem stripped_initFailedState (r : Bool) (st : State) : Stripped (initFailedState r st) := by
  unfold initFailedState
  split_ifs
  · exact ⟨releaseRef_gBackendType _, rfl, by simp [clearBackendIdentity, cleanup, vtableCleanup]⟩
  · exact ⟨rfl, rfl, rfl⟩

theorem stripped_finalizedState (env : Env) (st : State) : Stripped (finalizedState env st) :=
  ⟨releaseRef_gBackendType _, rfl,
    by simp [finalizedState, clearBackendIdentity, cleanup, vtableCleanup]⟩

theorem Ready.furnished {r : Bool} (hready : Ready p env path st r st') (h : Furnished p st) :
    Furnished p st' := by
  cases hready with
  | already => exact h
  | fresh _ ho | direct ho =>
    rintro _ ⟨⟩
    exact Or.inl ⟨rfl, (wired_of_filled ho).members⟩

/-- Every call keeps the tables furnished. -/
theorem Furnished.step {op : Op} {ret : ReturnCode} (h : Furnished p st)
    (heff : Effect p env st op ret st') : Furnished p st' := by
  cases heff with
  | refused => exact h
  | loadFailed _ _ _ ho | mpitLoadFailed _ ho =>
    exact furnished_of_none (LoadOutcome.apply_gHandle_of_failed ho)
  | initFailed => exact fun _ _ => Or.inr (stripped_initFailedState ..)
  | started _ _ _ hready | mpitStarted hready =>
    exact (hready.furnished h).congr rfl rfl rfl rfl
  | finalized => exact fun _ _ => Or.inr (stripped_finalizedState ..)
  | mpitFinalized =>
    have hflag : Furnished p { st with gMpitInited := false } := h.congr rfl rfl rfl rfl
    exact hflag.releaseRef

end Furnished

/-! ## One action -/

section

variable {p : Platform} {st : State} {s : Sys} {a : Sharing} {held : Holding} {slot : Slot}

/-- What a library provides is local or its own. -/
theorem provides_native {L : Library} {lib addr : ℕ} (h : L.provides p slot = .native lib addr) :
    lib = L.handle := by
  have hbind : ∀ {symbol}, L.bind symbol = .native lib addr → lib = L.handle := by
    intro symbol h
    unfold Library.bind at h
    split_ifs at h
    exact (Entry.native.inj h).1.symm
  unfold Library.provides at h
  split at h
  · exact hbind h
  · exact hbind h
  · exact hbind h
  · cases h
  · split_ifs at h
    exact hbind h

/-- A call ends in the member's function if the library of that one is open. -/
theorem callSlot_of_open
    (hopen : ∀ lib addr, st.tables.target slot = .native lib addr → st.linker.IsOpen lib) :
    callSlot st slot = if st.tables.target slot = .null then .error (.null slot) else .ok () := by
  unfold callSlot
  cases htarget : st.tables.target slot with
  | null => rfl
  | native lib addr => exact if_pos (hopen lib addr htarget)
  | wrapper | statusReader | localAint => rfl

/-- The library that is held serves, or its members are lost. -/
theorem Views.furnished (hv : Views p a s) (hf : Furnished p s.core)
    (hheld : a.held = some held) :
    if a.bound then Wired p held.library s.core else Stripped s.core := by
  have hhandle := hv.stands.handle_of_held hheld
  have hinstalled := hv.stands.installed held hheld
  have hinit : held.library.bind "MPI_Init" ≠ .null := by
    rw [Ne, Library.bind_eq_null_iff, (exports_of_validateCore hinstalled.core).1]
    exact Bool.noConfusion
  cases hbound : a.bound with
  | true =>
    rw [if_pos rfl]
    refine (hf _ hhandle).resolve_right fun hstripped => hinit ?_
    exact ((hinstalled.serves hbound).natives .init rfl).symm.trans
      (congrFun hstripped.members .init)
  | false =>
    rw [if_neg Bool.false_ne_true]
    refine (hf _ hhandle).resolve_left fun hwired => hinit ?_
    have htarget : s.core.tables.target .init = held.library.bind "MPI_Init" :=
      hwired.members .init fun h => by cases h
    rw [← htarget, Tables.target, hinstalled.lost hbound]

/-! ### Questions -/

/-- How far MPI has come. -/
theorem Stands.stage (h : Stands p a st) :
    mpiInitialized true st = (ReturnCode.ok, some (a.begun.toNat : Int)) ∧
      mpiFinalized true st = (ReturnCode.ok, some (a.ended.toNat : Int)) ∧
      isInitialized st = a.isActive.toNat := by
  have hrest : ∀ {rest : Rest}, rest.Shows st.gState →
      mpiInitialized true st = (ReturnCode.ok, some ((decide (rest ≠ .idle)).toNat : Int)) ∧
        mpiFinalized true st =
          (ReturnCode.ok, some ((decide (rest = .finalized)).toNat : Int)) ∧
        isInitialized st = 0 := by
    intro rest h
    cases rest with
    | idle => rcases h with h | h <;> simp [mpiInitialized, mpiFinalized, isInitialized, h]
    | finalized | finalizeFailed =>
      simp only [Rest.Shows] at h
      simp [mpiInitialized, mpiFinalized, isInitialized, h]
  cases a with
  | closed rest => exact hrest h.state
  | tools rest held bound more => exact hrest h.state
  | active held others =>
    have hactive : st.gState = .active := h.state
    simp [mpiInitialized, mpiFinalized, isInitialized, hactive, Sharing.begun, Sharing.ended,
      Sharing.isActive]

/-- The identity is that of the library that serves, and there is none when MPI has gone. -/
theorem Views.identity (hv : Views p a s) (hf : Furnished p s.core) (hheld : a.held.isSome) :
    getBackendType s.core = a.serving.elim .unknown (fun held => identifyBackend p held.library) ∧
      getBackendName s.core =
        a.serving.bind (fun held => backendName (identifyBackend p held.library)) ∧
      getLibraryPath s.core = a.serving.map Holding.path := by
  obtain ⟨held, hheld⟩ := Option.isSome_iff_exists.1 hheld
  have hfurnished := hv.furnished hf hheld
  unfold Sharing.serving
  cases hbound : a.bound with
  | true =>
    rw [hbound, if_pos rfl] at hfurnished
    have hidentity := ((hv.stands.installed held hheld).serves hbound).identity
    simp [getBackendName, getLibraryPath, hfurnished.backendType, hidentity, hheld]
  | false =>
    rw [hbound, if_neg Bool.false_ne_true] at hfurnished
    simp [getBackendName, getLibraryPath, hfurnished.backendType, hfurnished.identity,
      BackendIdentity.cleared]

theorem Views.observe {q : Query} (hv : Views p a s) (hf : Furnished p s.core)
    (hadmits : a.Admits (.ask q)) : a.observe p q = q.observe s.core := by
  obtain ⟨hinitialized, hfinalized, hactive⟩ := hv.stands.stage
  cases q with
  | mpiInitialized flag =>
    cases flag with
    | false => rfl
    | true => simp [Sharing.observe, Query.observe, hinitialized]
  | mpiFinalized flag =>
    cases flag with
    | false => rfl
    | true => simp [Sharing.observe, Query.observe, hfinalized]
  | isInitialized => simp [Sharing.observe, Query.observe, hactive]
  | backendType => simp [Sharing.observe, Query.observe, (hv.identity hf hadmits).1]
  | backendName => simp [Sharing.observe, Query.observe, (hv.identity hf hadmits).2.1]
  | libraryPath => simp [Sharing.observe, Query.observe, (hv.identity hf hadmits).2.2]

/-! ### Calls through members -/

theorem admits_mpi (hheld : a.held.isSome) (hkind : slot.kind ≠ .typeArray) :
    a.Admits (.mpi slot) := by
  obtain ⟨held, hheld⟩ := Option.isSome_iff_exists.1 hheld
  exact ⟨held, hheld, fun h => absurd h hkind⟩

/-- A member of MPI ends where the library that serves lets it, and nowhere if none does. -/
theorem Views.mpi (hv : Views p a s) (hf : Furnished p s.core) (hadmits : a.Admits (.mpi slot)) :
    a.perform p (.mpi slot) = none ∧ s.perform p (.mpi slot) = none ∨
      ∃ e, a.perform p (.mpi slot) = some (.reached e, a) ∧
        s.perform p (.mpi slot) = some (.reached e, s) := by
  obtain ⟨held, hheld, htypes⟩ := hadmits
  have hheld : a.held = some held := hheld
  have hfurnished := hv.furnished hf hheld
  have hopen := hv.open_of_handle _ (hv.stands.handle_of_held hheld)
  simp only [Sharing.perform, Sharing.serving, Sys.perform, Sharing.reach]
  cases hbound : a.bound with
  | true =>
    rw [hbound, if_pos rfl] at hfurnished
    have htarget := hfurnished.members slot htypes
    rw [callSlot_of_open fun lib addr hnative => ?_, htarget, if_pos rfl, hheld, Option.bind_some]
    · split_ifs with hnull
      · exact Or.inl ⟨rfl, rfl⟩
      · exact Or.inr ⟨_, rfl, rfl⟩
    · rw [provides_native (htarget.symm.trans hnative)]
      exact hopen
  | false =>
    rw [hbound, if_neg Bool.false_ne_true] at hfurnished
    refine Or.inl ⟨rfl, ?_⟩
    simp [callSlot, Tables.target, hfurnished.members]

/-- A member of the tools interface ends in the library that is held. -/
theorem Views.tools {slot : MtSlot} (hv : Views p a s) (hheld : a.held.isSome) :
    a.perform p (.tools slot) = none ∧ s.perform p (.tools slot) = none ∨
      ∃ e, a.perform p (.tools slot) = some (.reached e, a) ∧
        s.perform p (.tools slot) = some (.reached e, s) := by
  obtain ⟨held, hheld⟩ := Option.isSome_iff_exists.1 hheld
  have htools := congrFun (hv.stands.installed held hheld).tools slot
  have hopen := hv.open_of_handle _ (hv.stands.handle_of_held hheld)
  simp only [Sharing.perform, Sys.perform, Sharing.reach]
  rw [callMtSlot_of_bind htools hopen, htools, hheld, Option.bind_some]
  cases hexports : held.library.exports slot.symbol with
  | true =>
    rw [Library.bind_of_exports hexports]
    exact Or.inr ⟨_, rfl, rfl⟩
  | false =>
    rw [(Library.bind_eq_null_iff _ _).2 hexports]
    exact Or.inl ⟨rfl, rfl⟩

/-! ### The simulation -/

theorem diagnoseBackend_fst (env : Env) (libPath : Option CString) (st st' : State) :
    (diagnoseBackend p env libPath st).1 = (diagnoseBackend p env libPath st').1 := by
  unfold diagnoseBackend
  cases libPath with
  | none => rfl
  | some path =>
    dsimp only
    cases loaderLoad env path <;> rfl

theorem Furnished.diagnosed {env : Env} {libPath : Option CString} (h : Furnished p s.core) :
    Furnished p (s.diagnosed p env libPath).core := by
  unfold Sys.diagnosed
  rcases diagnoseBackend_state p env libPath s.core with heq | ⟨handle, heq⟩
  · rw [heq]
    exact h
  · rw [heq]
    exact h.congr rfl rfl rfl rfl

theorem Furnished.respond {c : Call} {r : ReturnCode × Sys} (h : Furnished p s.core)
    (hrespond : s.respond p c = some r) : Furnished p r.2.core := by
  unfold Sys.respond at hrespond
  split_ifs at hrespond
  split at hrespond
  · rename_i hexec
    cases hrespond
    exact h.step (exec_effect hexec)
  · cases hrespond

/-- The facade stands as the abstract one says, and what it holds has furnished the tables. -/
def Backs (p : Platform) (a : Sharing) (s : Sys) : Prop :=
  Views p a s ∧ Furnished p s.core

/-- One action of a program gets the same from both. -/
theorem Backs.perform {action : Action} (h : Backs p a s) (hadmits : a.Admits action) :
    Option.Rel (fun x y => x.1 = y.1 ∧ Backs p x.2 y.2) (a.perform p action)
      (s.perform p action) := by
  obtain ⟨hv, hf⟩ := h
  have hreached : (a.perform p action = none ∧ s.perform p action = none ∨
      ∃ e, a.perform p action = some (.reached e, a) ∧
        s.perform p action = some (.reached e, s)) →
      Option.Rel (fun x y => x.1 = y.1 ∧ Backs p x.2 y.2) (a.perform p action)
        (s.perform p action) := by
    rintro (⟨ha, hs⟩ | ⟨e, ha, hs⟩)
    · rw [ha, hs]
      exact .none
    · rw [ha, hs]
      exact .some ⟨rfl, hv, hf⟩
  cases action with
  | call c =>
    have hagrees := hv.respond hadmits
    have hfurnished : ∀ r, s.respond p c = some r → Furnished p r.2.core :=
      fun _ hr => hf.respond hr
    simp only [Sharing.perform, Sys.perform]
    generalize a.respond p c = r at hagrees ⊢
    generalize s.respond p c = r' at hagrees hfurnished ⊢
    cases hagrees with
    | none => exact .none
    | some h => exact .some ⟨congrArg Observation.code h.1, h.2, hfurnished _ rfl⟩
  | diagnose env libPath =>
    refine .some ⟨congrArg Observation.diagnosis ?_, hv.diagnosed, hf.diagnosed⟩
    exact diagnoseBackend_fst ..
  | mpi slot => exact hreached (hv.mpi hf hadmits)
  | tools slot => exact hreached (hv.tools hadmits)
  | ask q => exact .some ⟨hv.observe hf hadmits, hv, hf⟩

end

/-! ## Programs -/

/-- Every action of the program is one that the facade offers then. -/
def Sharing.Behaves (p : Platform) (a : Sharing) (program : List Action) : Prop :=
  AllSteps (fun a action => (stopping (Sharing.perform p) a action).2)
    (fun a action => ∀ x ∈ a, x.Admits action) (some a) program

/-- What the program gets from the abstract facade, and how that one stands then. -/
def Sharing.execute (p : Platform) (a : Sharing) (program : List Action) :
    List (Option Observation) × Option Sharing :=
  answers (stopping (Sharing.perform p)) (some a) program

/-- What the program gets from the facade, and the state then. -/
def Sys.execute (p : Platform) (s : Sys) (program : List Action) :
    List (Option Observation) × Option Sys :=
  answers (stopping (Sys.perform p)) (some s) program

theorem Backs.initial (p : Platform) : Backs p (.closed .idle) Sys.initial :=
  ⟨.initial, furnished_of_none rfl⟩

theorem Backs.execute {p : Platform} {a : Sharing} {s : Sys} {program : List Action}
    (hbacks : Backs p a s) (h : a.Behaves p program) :
    (a.execute p program).1 = (s.execute p program).1 ∧
      Option.Rel (Backs p) (a.execute p program).2 (s.execute p program).2 := by
  refine stopping_simulation ?_ h (.some hbacks)
  intro a s action hbacks hadmits
  exact hbacks.perform hadmits

/-- A program gets the same from the facade as from the abstract one, whatever it does, and the
facade stands in the end as that one says. -/
theorem programs_refine {p : Platform} {program : List Action}
    (h : (Sharing.closed .idle).Behaves p program) :
    ((Sharing.closed .idle).execute p program).1 = (Sys.initial.execute p program).1 ∧
      Option.Rel (Backs p) ((Sharing.closed .idle).execute p program).2
        (Sys.initial.execute p program).2 :=
  (Backs.initial p).execute h

/-- Where nobody holds a library and MPI may be initialised, a program gets from then on what it
gets in a fresh process, whatever was done and has failed before. -/
theorem as_good_as_new {p : Platform} {earlier program : List Action} {s : Sys}
    (hearlier : (Sharing.closed .idle).Behaves p earlier)
    (hrun : (Sys.initial.execute p earlier).2 = some s) (hzero : s.core.gRefcount = 0)
    (hcheck : checkCanInitialize s.core = .ok)
    (h : (Sharing.closed .idle).Behaves p program) :
    (s.execute p program).1 = (Sys.initial.execute p program).1 := by
  have hlast := ((Backs.initial p).execute hearlier).2
  rw [hrun] at hlast
  obtain ⟨a, hbacks⟩ : ∃ a, Backs p a s := by
    generalize ((Sharing.closed .idle).execute p earlier).2 = last at hlast
    cases hlast with
    | some hbacks => exact ⟨_, hbacks⟩
  obtain rfl := hbacks.1.eq_closed hzero hcheck
  exact (hbacks.execute h).1.symm.trans ((Backs.initial p).execute h).1

/-- MPI is called and the facade is asked about, in the midst and at the end. -/
def session : List Action :=
  [.call ⟨.init, .offering (some mpichLibrary) 0⟩, .ask .backendName, .mpi .commRank,
    .mpi .statusGetTag, .tools .tFinalize, .call ⟨.finalize, .offering none 0⟩,
    .ask (.mpiFinalized true)]

theorem behaves_session : (Sharing.closed .idle).Behaves .linux session := by
  have hheld : ∀ {a : Option Sharing}, (a.all fun x => x.held.isSome) = true →
      ∀ x ∈ a, x.held.isSome = true := fun h => (Option.all_eq_true _ _).1 h
  refine ⟨fun _ _ _ h => Op.noConfusion h, hheld ?_, fun x hx => ?_, fun x hx => ?_, hheld ?_,
    fun _ _ _ h => Op.noConfusion h, fun _ _ => trivial, trivial⟩
  · decide +kernel
  · exact admits_mpi (hheld (by decide +kernel) x hx) (by decide)
  · exact admits_mpi (hheld (by decide +kernel) x hx) (by decide)
  · decide +kernel

theorem programs_refine_session : (Sys.initial.execute .linux session).1 =
    [some (.code .ok), some (.string (some "mpich".toList)), some (.reached (.native 1 4)),
      some (.reached (.statusReader .mpich)), some (.reached (.native 1 7)), some (.code .ok),
      some (.flag (.ok, some 1))] := by
  rw [← (programs_refine behaves_session).1]
  decide +kernel

/-- A first attempt finds no library, and a second one a backend that does not start. -/
def failedAttempts : List Action :=
  [.call ⟨.init, .offering none 0⟩, .call ⟨.init, .offering (some mpichLibrary) 1⟩]

theorem as_good_as_new_failed : ∃ s, (Sys.initial.execute .linux failedAttempts).2 = some s ∧
    (s.execute .linux session).1 = (Sys.initial.execute .linux session).1 := by
  have hbehaves : (Sharing.closed .idle).Behaves .linux failedAttempts :=
    ⟨fun _ _ _ h => Op.noConfusion h, fun _ _ _ h => Op.noConfusion h, trivial⟩
  have hrun : (Sys.initial.execute .linux failedAttempts).2.isSome := by decide +kernel
  have hlast : (Sys.initial.execute .linux failedAttempts).2.map (fun s =>
      (s.core.gRefcount, checkCanInitialize s.core)) = some (0, .ok) := by decide +kernel
  obtain ⟨s, hs⟩ := Option.isSome_iff_exists.1 hrun
  rw [hs] at hlast
  obtain ⟨hzero, hcheck⟩ := Prod.mk.inj (Option.some.inj hlast)
  exact ⟨s, hs, as_good_as_new hbehaves hs hzero hcheck behaves_session⟩

end UniMPI
