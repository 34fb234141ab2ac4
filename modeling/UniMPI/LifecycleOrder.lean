import UniMPI.Lifecycle

/-!
# The order of the backend's lifecycle calls

The backend sees the facade as a sequence of `MPI_Init` and `MPI_Finalize` calls.
`execLogged` is `exec` with the record of these calls: forgetting it gives `exec`
(`execLogged_map_fst`), and what a call answers does not depend on the functions it
did not record (`exec_congr_of_nativeCalls`), so the log misses none.

`Follows` reads the log off `g_state`: failed starts, then one that succeeds, then
one `MPI_Finalize`. The discipline of the log and the answers of the three query
functions are its consequences (`lifecycle_disciplined`).
-/

namespace UniMPI

open Runs

/-! ## The query functions -/

/-- `unimpi_mpi_initialized`; `flag` tells whether the caller passed a pointer, and the second part
is what is written to it. -/
def mpiInitialized (flag : Bool) (st : State) : ReturnCode × Option Int :=
  if !flag then (.errInvalidArgument, none)
  else (.ok, some (if st.gState = .active ∨ st.gState = .finalizing ∨ st.gState = .finalized ∨
    st.gState = .finalizeFailed then 1 else 0))

/-- `unimpi_mpi_finalized`. -/
def mpiFinalized (flag : Bool) (st : State) : ReturnCode × Option Int :=
  if !flag then (.errInvalidArgument, none)
  else (.ok, some (if st.gState = .finalized then 1 else 0))

/-- `unimpi_is_initialized`. -/
def isInitialized (st : State) : Int :=
  if st.gState = .active then 1 else 0

/-- The flag of a query is set. -/
def Flagged (query : Bool → State → ReturnCode × Option Int) (st : State) : Prop :=
  query true st = (.ok, some 1)

theorem flagged_mpiInitialized_iff (st : State) : Flagged mpiInitialized st ↔
    st.gState = .active ∨ st.gState = .finalizing ∨ st.gState = .finalized ∨
      st.gState = .finalizeFailed := by
  by_cases h : st.gState = .active ∨ st.gState = .finalizing ∨ st.gState = .finalized ∨
    st.gState = .finalizeFailed <;> simp [Flagged, mpiInitialized, h]

theorem flagged_mpiFinalized_iff (st : State) :
    Flagged mpiFinalized st ↔ st.gState = .finalized := by
  simp [Flagged, mpiFinalized]

theorem isInitialized_eq_one_iff (st : State) : isInitialized st = 1 ↔ st.gState = .active := by
  simp [isInitialized]

/-! ## The log -/

/-- A call of the backend and the code it returned. -/
inductive NativeCall
  /-- `MPI_Init` or `MPI_Init_thread`. -/
  | init (code : Int)
  | finalize (code : Int)
  deriving DecidableEq

def NativeCall.isFinalize : NativeCall → Bool
  | init _ => false
  | finalize _ => true

/-- What a call answers and the state it leaves, with the lifecycle functions of the backend it
called. -/
abbrev Logged := (ReturnCode × State) × List NativeCall

/-- `initialize_backend`, with its calls. -/
def initializeBackendLogged (p : Platform) (env : Env) (threadMode : Bool) (st : State) :
    Except Fault Logged :=
  let (ret, st) := ensureLoaded p env st
  if ret ≠ .ok then .ok ((ret, { st with gState := .initFailed }), [])
  else
    let st := { st with gRefcount := st.gRefcount + 1 }
    match callSlot st (initSlot threadMode st) with
    | .error f => .error f
    | .ok () =>
      .ok (finishInit env (initLevel env threadMode st) st, [.init env.mpiInit])

def initLogged (p : Platform) (env : Env) (st : State) : Except Fault Logged :=
  let ret := checkCanInitialize st
  if ret ≠ .ok then .ok ((ret, st), [])
  else initializeBackendLogged p env false { st with gState := .initializing }

def initThreadLogged (p : Platform) (env : Env) (required : Int) (provided : Bool) (st : State) :
    Except Fault Logged :=
  if required ≠ 0 ∧ required ≠ 1 ∧ required ≠ 2 ∧ required ≠ 3 then
    .ok ((.errInvalidArgument, st), [])
  else if !provided then .ok ((.errInvalidArgument, st), [])
  else
    let ret := checkCanInitialize st
    if ret ≠ .ok then .ok ((ret, st), [])
    else initializeBackendLogged p env true { st with gState := .initializing }

def initWithLogged (p : Platform) (env : Env) (name : Option CString) (st : State) :
    Except Fault Logged :=
  match name with
  | none => .ok ((.errNoBackend, st), [])
  | some name =>
    let ret := checkCanInitialize st
    if ret ≠ .ok then .ok ((ret, st), [])
    else
      let st := { st with gState := .initializing }
      let (ret, st) := loadBackend p env (libraryFor name) st
      if ret ≠ .ok then .ok ((ret, { st with gState := .initFailed }), [])
      else match callSlot st .init with
        | .error f => .error f
        | .ok () =>
          if env.mpiInit ≠ 0 then
            .ok ((.errBackendLoad,
              { clearBackendIdentity (unloadHandle (cleanup st)) with gState := .initFailed }),
              [.init env.mpiInit])
          else
            .ok ((.ok, { st with
              gRefcount := st.gRefcount + 1, gBackendLoaded := true, gState := .active }),
              [.init env.mpiInit])

def finalizeLogged (env : Env) (st : State) : Except Fault Logged :=
  match st.gState with
  | .never | .initFailed => .ok ((.errNotInitialized, st), [])
  | .finalized => .ok ((.errFinalized, st), [])
  | .initializing | .finalizing | .finalizeFailed => .ok ((.errInvalidState, st), [])
  | .active =>
    let st := { st with gState := .finalizing }
    match callSlot st .finalize with
    | .error f => .error f
    | .ok () =>
      let st := clearBackendIdentity (releaseRef (cleanup st))
      .ok ((ofBackend env.mpiFinalize, { st with
        gThreadLevel := 0
        gState := if env.mpiFinalize = 0 then .finalized else .finalizeFailed }),
        [.finalize env.mpiFinalize])

/-- One call, with the lifecycle functions it called. The tools interface calls none of them. -/
def execLogged (p : Platform) (op : Op) (env : Env) (st : State) : Except Fault Logged :=
  match op with
  | .init => initLogged p env st
  | .initThread required provided => initThreadLogged p env required provided st
  | .initWith name => initWithLogged p env name st
  | .finalize => finalizeLogged env st
  | .mpitInitThread => (mpitInitThread p env st).map fun r => (r, [])
  | .mpitFinalize => (mpitFinalize env st).map fun r => (r, [])

/-- The recorded calls. A call that faults does not return. -/
def callsOf : Except Fault Logged → List NativeCall
  | .error _ => []
  | .ok (_, calls) => calls

/-- The lifecycle functions of the backend that a call of the facade called. -/
def nativeCalls (p : Platform) (c : Call) (st : State) : List NativeCall :=
  callsOf (execLogged p c.op c.env st)

/-- What a call adds to the log, the latest call first. -/
def logCalls (p : Platform) (s : Sys) (c : Call) (log : List NativeCall) : List NativeCall :=
  nativeCalls p c s.core ++ log

/-- A call and what it adds to the log. -/
abbrev LoggedStep (p : Platform) : Sys × List NativeCall → Call → Sys × List NativeCall → Prop :=
  Recorded (Step p) (logCalls p)

/-! ## The recorded calls -/

section

variable {p : Platform} {env : Env} {st : State}

theorem initializeBackendLogged_map_fst (threadMode : Bool) :
    (initializeBackendLogged p env threadMode st).map Prod.fst =
      initializeBackend p env threadMode st := by
  unfold initializeBackendLogged initializeBackend
  generalize ensureLoaded p env st = loaded
  obtain ⟨ret, st'⟩ := loaded
  dsimp only
  split_ifs with hret
  · rfl
  · cases callSlot { st' with gRefcount := st'.gRefcount + 1 }
      (initSlot threadMode { st' with gRefcount := st'.gRefcount + 1 }) <;> rfl

theorem initWithLogged_map_fst (name : Option CString) :
    (initWithLogged p env name st).map Prod.fst = initWith p env name st := by
  unfold initWithLogged initWith
  cases name with
  | none => rfl
  | some name =>
    dsimp only
    generalize loadBackend p env (libraryFor name) { st with gState := .initializing } = loaded
    obtain ⟨ret, st'⟩ := loaded
    dsimp only
    split_ifs with hcheck hret hcode
    · rfl
    · rfl
    · cases callSlot st' .init <;> rfl
    · cases callSlot st' .init <;> rfl

/-- Without the record, it is the call. -/
theorem execLogged_map_fst (op : Op) :
    (execLogged p op env st).map Prod.fst = exec p op env st := by
  cases op with
  | init =>
    simp only [execLogged, exec, initLogged, init]
    split_ifs with hcheck
    · rfl
    · exact initializeBackendLogged_map_fst false
  | initThread required provided =>
    simp only [execLogged, exec, initThreadLogged, initThread]
    split_ifs with hrequired hprovided hcheck
    · rfl
    · rfl
    · rfl
    · exact initializeBackendLogged_map_fst true
  | initWith name => exact initWithLogged_map_fst name
  | finalize =>
    simp only [execLogged, exec, finalizeLogged, finalize]
    cases st.gState with
    | active => cases callSlot { st with gState := .finalizing } .finalize <;> rfl
    | _ => rfl
  | mpitInitThread =>
    simp only [execLogged, exec]
    cases mpitInitThread p env st <;> rfl
  | mpitFinalize =>
    simp only [execLogged, exec]
    cases mpitFinalize env st <;> rfl

theorem nativeCalls_of_refused {op : Op}
    (h : op = .finalize ∧ st.gState ≠ .active ∨
      op.initializes ∧ (op.path p env = none ∨ checkCanInitialize st ≠ .ok)) :
    nativeCalls p ⟨op, env⟩ st = [] := by
  rcases h with ⟨rfl, hidle⟩ | ⟨hinit, hwhy⟩
  · simp only [nativeCalls, execLogged, finalizeLogged]
    cases hs : st.gState with
    | active => exact absurd hs hidle
    | _ => rfl
  · cases op with
    | init =>
      have hcheck := hwhy.resolve_left (Option.some_ne_none _)
      simp [nativeCalls, execLogged, initLogged, hcheck, callsOf]
    | initThread required provided =>
      simp only [nativeCalls, execLogged, initThreadLogged]
      split_ifs with hrequired hprovided hcheck
      · rfl
      · rfl
      · rfl
      · have hpath : (Op.initThread required provided).path p env = some (detectBackend p env) :=
          if_pos ⟨by omega, by simpa using hprovided⟩
        exact absurd (not_not.1 hcheck)
          (hwhy.resolve_left (by rw [hpath]; exact Option.some_ne_none _))
    | initWith name =>
      cases name with
      | none => rfl
      | some name =>
        have hcheck := hwhy.resolve_left (Option.some_ne_none _)
        simp [nativeCalls, execLogged, initWithLogged, hcheck, callsOf]
    | finalize | mpitInitThread | mpitFinalize => cases hinit

theorem callsOf_initializeBackendLogged {threadMode : Bool} {r : ReturnCode × State}
    (h : initializeBackend p env threadMode st = .ok r) :
    callsOf (initializeBackendLogged p env threadMode st) =
      if st.gBackendLoaded || (loadOutcome p env (detectBackend p env) st).code = .ok then
        [.init env.mpiInit]
      else [] := by
  unfold initializeBackend at h
  unfold initializeBackendLogged
  rcases ensureLoaded_cases p env st with ⟨st', hready⟩ | ⟨hl, ho⟩
  · rw [if_pos]
    · simp only [ensureLoaded_of_ready hready] at h ⊢
      cases hcall : callSlot { st' with gRefcount := st'.gRefcount + 1 }
          (initSlot threadMode { st' with gRefcount := st'.gRefcount + 1 }) with
      | error f => simp [hcall] at h
      | ok => rfl
    · cases hready with
      | already hl => simp [hl]
      | fresh _ ho => simp [ho, LoadOutcome.code]
  · rw [if_neg (by simp [hl, ho])]
    simp [ensureLoaded_of_failed hl ho, ho, callsOf]

theorem callsOf_initWithLogged {name : CString} {r : ReturnCode × State}
    (hcheck : checkCanInitialize st = .ok) (h : initWith p env (some name) st = .ok r) :
    callsOf (initWithLogged p env (some name) st) =
      if (loadOutcome p env (libraryFor name) st).code = .ok then [.init env.mpiInit] else [] := by
  have hcode : (loadBackend p env (libraryFor name) { st with gState := .initializing }).1 =
      (loadOutcome p env (libraryFor name) st).code := by
    rw [loadBackend_eq]
    rfl
  unfold initWith at h
  unfold initWithLogged
  rw [← hcode]
  dsimp only at h ⊢
  rw [if_neg (not_not.2 hcheck)] at h ⊢
  generalize loadBackend p env (libraryFor name) { st with gState := .initializing } = loaded
    at h ⊢
  obtain ⟨ret, st'⟩ := loaded
  dsimp only at h ⊢
  by_cases hret : ret = .ok
  · rw [if_neg (not_not.2 hret)] at h ⊢
    rw [if_pos hret]
    cases hcall : callSlot st' .init with
    | error f =>
      rw [hcall] at h
      cases h
    | ok =>
      dsimp only
      split_ifs <;> rfl
  · rw [if_pos hret, if_neg hret]
    rfl

/-- A call that may start the backend does so if it has a filled library. -/
theorem nativeCalls_of_path {op : Op} {path : CString} {r : ReturnCode × State}
    (hpath : op.path p env = some path) (hcheck : checkCanInitialize st = .ok)
    (hexec : exec p op env st = .ok r) :
    nativeCalls p ⟨op, env⟩ st =
      if op.reuses && st.gBackendLoaded || (loadOutcome p env path st).code = .ok then
        [.init env.mpiInit]
      else [] := by
  cases op with
  | init =>
    obtain rfl := Option.some.inj hpath
    simp only [exec, init, hcheck, ne_eq, not_true_eq_false, if_false] at hexec
    simp only [nativeCalls, execLogged, initLogged, hcheck, ne_eq, not_true_eq_false, if_false]
    exact callsOf_initializeBackendLogged hexec
  | initThread required provided =>
    obtain ⟨⟨hrequired, hprovided⟩, rfl⟩ : _ ∧ detectBackend p env = path := by
      simpa [Op.path] using hpath
    have hlevel : ¬(required ≠ 0 ∧ required ≠ 1 ∧ required ≠ 2 ∧ required ≠ 3) := by omega
    simp only [exec, initThread, hlevel, hprovided, hcheck, ne_eq, not_true_eq_false, if_false,
      Bool.not_true, Bool.false_eq_true] at hexec
    simp only [nativeCalls, execLogged, initThreadLogged, hlevel, hprovided, hcheck, ne_eq,
      not_true_eq_false, if_false, Bool.not_true, Bool.false_eq_true]
    exact callsOf_initializeBackendLogged hexec
  | initWith name =>
    obtain ⟨name, rfl, rfl⟩ := Option.map_eq_some_iff.1 hpath
    have hcalls := callsOf_initWithLogged hcheck hexec
    simpa [nativeCalls, execLogged, Op.reuses] using hcalls
  | finalize | mpitInitThread | mpitFinalize => cases hpath

theorem nativeCalls_of_ready {op : Op} {st' : State} {path : CString} {r : ReturnCode × State}
    (hcheck : checkCanInitialize st = .ok) (hpath : op.path p env = some path)
    (hready : Ready p env path st op.reuses st') (hexec : exec p op env st = .ok r) :
    nativeCalls p ⟨op, env⟩ st = [.init env.mpiInit] := by
  rw [nativeCalls_of_path hpath hcheck hexec, if_pos]
  generalize op.reuses = reuses at hready
  cases hready with
  | already hl => simp [hl]
  | fresh _ ho | direct ho => simp [ho, LoadOutcome.code]

theorem nativeCalls_of_active (hs : st.gState = .active) (hcall : callSlot st .finalize = .ok ()) :
    nativeCalls p ⟨.finalize, env⟩ st = [.finalize env.mpiFinalize] := by
  have hsame : callSlot { st with gState := .finalizing } .finalize = callSlot st .finalize := rfl
  simp [nativeCalls, execLogged, finalizeLogged, hs, hsame, hcall, callsOf]

theorem nativeCalls_mpitInitThread : nativeCalls p ⟨.mpitInitThread, env⟩ st = [] := by
  simp only [nativeCalls, execLogged]
  cases mpitInitThread p env st <;> rfl

theorem nativeCalls_mpitFinalize : nativeCalls p ⟨.mpitFinalize, env⟩ st = [] := by
  simp only [nativeCalls, execLogged]
  cases mpitFinalize env st <;> rfl

end

/-! ## The log misses nothing -/

/-- The environment with other answers of `MPI_Init` and `MPI_Finalize`. -/
def Env.answering (env : Env) (mpiInit mpiFinalize : Int) : Env :=
  { env with mpiInit := mpiInit, mpiFinalize := mpiFinalize }

section Answering

variable {p : Platform} {env : Env} {st : State} (mpiInit mpiFinalize : Int)

/-- The library that is loaded does not depend on what it will answer. -/
theorem ensureLoaded_answering :
    ensureLoaded p (env.answering mpiInit mpiFinalize) st = ensureLoaded p env st :=
  rfl

theorem initializeBackend_answering {threadMode : Bool}
    (h : callsOf (initializeBackendLogged p env threadMode st) = []) :
    initializeBackend p (env.answering mpiInit mpiFinalize) threadMode st =
      initializeBackend p env threadMode st := by
  unfold initializeBackendLogged at h
  unfold initializeBackend
  rw [ensureLoaded_answering]
  generalize ensureLoaded p env st = loaded at h ⊢
  obtain ⟨ret, st'⟩ := loaded
  dsimp only at h ⊢
  split_ifs with hret
  · rfl
  · rw [if_neg hret] at h
    cases hcall : callSlot { st' with gRefcount := st'.gRefcount + 1 }
        (initSlot threadMode { st' with gRefcount := st'.gRefcount + 1 }) with
    | error f => rfl
    | ok =>
      rw [hcall] at h
      exact absurd h (List.cons_ne_nil _ _)

theorem initWith_answering {name : Option CString}
    (h : callsOf (initWithLogged p env name st) = []) :
    initWith p (env.answering mpiInit mpiFinalize) name st = initWith p env name st := by
  cases name with
  | none => rfl
  | some name =>
    have hload : ∀ st, loadBackend p (env.answering mpiInit mpiFinalize) (libraryFor name) st =
      loadBackend p env (libraryFor name) st := fun _ => rfl
    unfold initWithLogged at h
    unfold initWith
    dsimp only at h ⊢
    rw [hload]
    generalize loadBackend p env (libraryFor name) { st with gState := .initializing } = loaded
      at h ⊢
    obtain ⟨ret, st'⟩ := loaded
    dsimp only at h ⊢
    by_cases hcheck : checkCanInitialize st ≠ .ok
    · rw [if_pos hcheck, if_pos hcheck]
    · rw [if_neg hcheck] at h ⊢
      rw [if_neg hcheck]
      by_cases hret : ret ≠ .ok
      · rw [if_pos hret, if_pos hret]
      · rw [if_neg hret] at h ⊢
        rw [if_neg hret]
        cases hcall : callSlot st' .init with
        | error f => rfl
        | ok =>
          rw [hcall] at h
          dsimp only at h
          split_ifs at h <;> exact absurd h (List.cons_ne_nil _ _)

theorem finalize_answering (h : callsOf (finalizeLogged env st) = []) :
    finalize (env.answering mpiInit mpiFinalize) st = finalize env st := by
  unfold finalizeLogged at h
  unfold finalize
  cases hs : st.gState with
  | active =>
    rw [hs] at h
    dsimp only at h ⊢
    cases hcall : callSlot { st with gState := .finalizing } .finalize with
    | error f => rfl
    | ok =>
      rw [hcall] at h
      exact absurd h (List.cons_ne_nil _ _)
  | _ => rfl

/-- A call that calls neither function does not depend on what they return. -/
theorem exec_congr_of_nativeCalls {op : Op} (h : nativeCalls p ⟨op, env⟩ st = []) :
    exec p op (env.answering mpiInit mpiFinalize) st = exec p op env st := by
  unfold nativeCalls at h
  cases op with
  | init =>
    simp only [execLogged, initLogged] at h
    simp only [exec, init]
    split_ifs with hcheck
    · rfl
    · rw [if_neg hcheck] at h
      exact initializeBackend_answering mpiInit mpiFinalize h
  | initThread required provided =>
    simp only [execLogged, initThreadLogged] at h
    simp only [exec, initThread]
    split_ifs with hrequired hprovided hcheck
    · rfl
    · rfl
    · rfl
    · rw [if_neg hrequired, if_neg hprovided, if_neg hcheck] at h
      exact initializeBackend_answering mpiInit mpiFinalize h
  | initWith name => exact initWith_answering mpiInit mpiFinalize h
  | finalize => exact finalize_answering mpiInit mpiFinalize h
  | mpitInitThread | mpitFinalize => rfl

end Answering

/-! ## The discipline -/

/-- Every call of the log is a failed `MPI_Init`. -/
def AllFailed (log : List NativeCall) : Prop :=
  ∀ call ∈ log, ∃ code, code ≠ 0 ∧ call = .init code

/-- What the state says about the log: failed starts, one that succeeded, one `MPI_Finalize`. -/
def Follows : LifecycleState → List NativeCall → Prop
  | .never, log => log = []
  | .initFailed, log => AllFailed log
  | .active, log => ∃ failed, AllFailed failed ∧ log = .init 0 :: failed
  | .finalized, log => ∃ failed, AllFailed failed ∧ log = .finalize 0 :: .init 0 :: failed
  | .finalizeFailed, log => ∃ failed code, AllFailed failed ∧ code ≠ 0 ∧
      log = .finalize code :: .init 0 :: failed
  | .initializing, _ | .finalizing, _ => False

theorem AllFailed.nil : AllFailed [] :=
  fun _ h => absurd h List.not_mem_nil

theorem AllFailed.cons {log : List NativeCall} {code : Int} (h : AllFailed log) (hcode : code ≠ 0) :
    AllFailed (.init code :: log) :=
  List.forall_mem_cons.2 ⟨⟨code, hcode, rfl⟩, h⟩

/-- A state in which a start is permitted has seen only failed ones. -/
theorem Follows.allFailed_of_check {st : State} {log : List NativeCall} (h : Follows st.gState log)
    (hcheck : checkCanInitialize st = .ok) : AllFailed log := by
  unfold checkCanInitialize at hcheck
  cases hs : st.gState with
  | never =>
    rw [hs] at h
    rw [show log = [] from h]
    exact .nil
  | initFailed =>
    rw [hs] at h
    exact h
  | initializing | active | finalizing | finalized | finalizeFailed => simp [hs] at hcheck

theorem Follows.step {p : Platform} {s s' : Sys} {c : Call} {log : List NativeCall}
    (hstep : Step p s c s') (h : Follows s.core.gState log) :
    Follows s'.core.gState (logCalls p s c log) := by
  obtain ⟨op, env⟩ := c
  obtain ⟨core', n⟩ := s'
  obtain ⟨-, ⟨ret, hexec⟩, -⟩ := hstep.cases
  dsimp only at hexec ⊢
  unfold logCalls
  cases exec_effect hexec with
  | refused hret hwhy =>
    rw [nativeCalls_of_refused hwhy]
    exact h
  | loadFailed hcheck hpath hl ho =>
    rw [nativeCalls_of_path hpath hcheck hexec, if_neg]
    · exact h.allFailed_of_check hcheck
    · cases hr : op.reuses with
      | false => simp [ho]
      | true => simp [ho, hl hr]
  | initFailed hcheck hpath hready hret =>
    rw [nativeCalls_of_ready hcheck hpath hready hexec]
    exact (h.allFailed_of_check hcheck).cons hret
  | started level hcheck hpath hready hret hlevel =>
    rw [nativeCalls_of_ready hcheck hpath hready hexec, hret]
    exact ⟨log, h.allFailed_of_check hcheck, rfl⟩
  | finalized hs hcall =>
    rw [hs] at h
    obtain ⟨failed, hfailed, rfl⟩ := h
    rw [nativeCalls_of_active hs hcall]
    simp only [finalizedState]
    split_ifs with hcode
    · rw [hcode]
      exact ⟨failed, hfailed, rfl⟩
    · exact ⟨failed, env.mpiFinalize, hfailed, hcode, rfl⟩
  | mpitLoadFailed hl ho =>
    rw [LoadOutcome.apply_gState_eq, nativeCalls_mpitInitThread]
    exact h
  | mpitStarted hready hcall =>
    simp only [hready.gState, nativeCalls_mpitInitThread]
    exact h
  | mpitFinalized hcall =>
    rw [releaseRef_gState_eq, nativeCalls_mpitFinalize]
    exact h

theorem Follows.initial : Follows State.initial.gState [] :=
  show ([] : List NativeCall) = [] from rfl

theorem Follows.of_reaches {p : Platform} {t : Sys × List NativeCall}
    (h : Reaches (LoggedStep p) (fun _ _ => True) (Sys.initial, []) t) :
    Follows t.1.core.gState t.2 := by
  refine h.invariant (P := fun t => Follows t.1.core.gState t.2) ?_ Follows.initial
  rintro ⟨s, log⟩ c ⟨s', log'⟩ - ⟨hstep, rfl⟩ hfollows
  exact hfollows.step hstep

/-! ## What the log shows -/

/-- At most one `MPI_Init` has succeeded, `MPI_Finalize` was called at most once, after that
success, and no `MPI_Init` was called after it. The latest call is the first. -/
structure Disciplined (log : List NativeCall) : Prop where
  initOnce : log.count (.init 0) ≤ 1
  finalizeOnce : log.countP NativeCall.isFinalize ≤ 1
  finalizeLast : ∀ later code earlier, log = later ++ .finalize code :: earlier →
    .init 0 ∈ earlier ∧ ∀ code', .init code' ∉ later

namespace AllFailed

variable {log : List NativeCall} (h : AllFailed log)

include h

theorem init_notMem : .init 0 ∉ log := by
  intro hmem
  obtain ⟨code, hcode, heq⟩ := h _ hmem
  exact hcode (NativeCall.init.inj heq).symm

theorem finalize_notMem (code : Int) : .finalize code ∉ log := by
  intro hmem
  obtain ⟨code', -, heq⟩ := h _ hmem
  cases heq

theorem countP_isFinalize : log.countP NativeCall.isFinalize = 0 := by
  refine List.countP_eq_zero.2 fun call hmem => ?_
  obtain ⟨code, -, rfl⟩ := h call hmem
  exact Bool.false_ne_true

theorem disciplined : Disciplined log := by
  refine ⟨?_, ?_, fun later code earlier heq => ?_⟩
  · rw [List.count_eq_zero.2 h.init_notMem]
    omega
  · rw [h.countP_isFinalize]
    omega
  · exact absurd (heq ▸ List.mem_append_right later List.mem_cons_self) (h.finalize_notMem code)

theorem disciplined_init : Disciplined (.init 0 :: log) := by
  refine ⟨?_, ?_, fun later code earlier heq => ?_⟩
  · simp [List.count_eq_zero.2 h.init_notMem]
  · simp [NativeCall.isFinalize, h.countP_isFinalize]
  · have hmem : .finalize code ∈ .init 0 :: log :=
      heq ▸ List.mem_append_right later List.mem_cons_self
    simp [h.finalize_notMem code] at hmem

theorem disciplined_finalize (code : Int) : Disciplined (.finalize code :: .init 0 :: log) := by
  refine ⟨?_, ?_, fun later code' earlier heq => ?_⟩
  · simp [List.count_eq_zero.2 h.init_notMem]
  · have hone : (NativeCall.finalize code :: .init 0 :: log).countP NativeCall.isFinalize = 1 := by
      rw [List.countP_cons_of_pos rfl, List.countP_cons_of_neg Bool.false_ne_true,
        h.countP_isFinalize]
    exact Nat.le_of_eq hone
  · cases later with
    | nil =>
      obtain ⟨-, rfl⟩ := List.cons.inj heq
      exact ⟨List.mem_cons_self, fun _ => List.not_mem_nil⟩
    | cons call later =>
      -- a second `MPI_Finalize` would be among the starts
      obtain ⟨-, hrest⟩ := List.cons.inj heq
      have hmem : .finalize code' ∈ .init 0 :: log :=
        hrest ▸ List.mem_append_right later List.mem_cons_self
      simp [h.finalize_notMem code'] at hmem

end AllFailed

section Follows

variable {st : State} {log : List NativeCall}

theorem Follows.disciplined (h : Follows st.gState log) : Disciplined log := by
  cases hs : st.gState with
  | never =>
    rw [hs] at h
    obtain rfl : log = [] := h
    exact AllFailed.nil.disciplined
  | initFailed =>
    rw [hs] at h
    exact AllFailed.disciplined h
  | active =>
    rw [hs] at h
    obtain ⟨failed, hfailed, rfl⟩ := h
    exact hfailed.disciplined_init
  | finalized =>
    rw [hs] at h
    obtain ⟨failed, hfailed, rfl⟩ := h
    exact hfailed.disciplined_finalize 0
  | finalizeFailed =>
    rw [hs] at h
    obtain ⟨failed, code, hfailed, -, rfl⟩ := h
    exact hfailed.disciplined_finalize code
  | initializing | finalizing =>
    rw [hs] at h
    exact h.elim

/-- The states after a success of `MPI_Init` are those that `unimpi_mpi_initialized` names. -/
theorem Follows.initialized_iff (h : Follows st.gState log) :
    Flagged mpiInitialized st ↔ .init 0 ∈ log := by
  rw [flagged_mpiInitialized_iff]
  cases hs : st.gState with
  | never =>
    rw [hs] at h
    obtain rfl : log = [] := h
    simp
  | initFailed =>
    rw [hs] at h
    simp [AllFailed.init_notMem h]
  | active | finalized =>
    rw [hs] at h
    obtain ⟨failed, -, rfl⟩ := h
    simp
  | finalizeFailed =>
    rw [hs] at h
    obtain ⟨failed, code, -, -, rfl⟩ := h
    simp
  | initializing | finalizing =>
    rw [hs] at h
    exact h.elim

theorem Follows.finalized_iff (h : Follows st.gState log) :
    Flagged mpiFinalized st ↔ .finalize 0 ∈ log := by
  rw [flagged_mpiFinalized_iff]
  cases hs : st.gState with
  | never =>
    rw [hs] at h
    obtain rfl : log = [] := h
    simp
  | initFailed =>
    rw [hs] at h
    simp [AllFailed.finalize_notMem h]
  | active =>
    rw [hs] at h
    obtain ⟨failed, hfailed, rfl⟩ := h
    simp [hfailed.finalize_notMem]
  | finalized =>
    rw [hs] at h
    obtain ⟨failed, -, rfl⟩ := h
    simp
  | finalizeFailed =>
    rw [hs] at h
    obtain ⟨failed, code, hfailed, hcode, rfl⟩ := h
    simp [hfailed.finalize_notMem, hcode.symm]
  | initializing | finalizing =>
    rw [hs] at h
    exact h.elim

/-- The facade is active from a success of `MPI_Init` to the call of `MPI_Finalize`. -/
theorem Follows.active_iff (h : Follows st.gState log) :
    st.gState = .active ↔ .init 0 ∈ log ∧ ∀ code, .finalize code ∉ log := by
  cases hs : st.gState with
  | never =>
    rw [hs] at h
    obtain rfl : log = [] := h
    simp
  | initFailed =>
    rw [hs] at h
    simp [AllFailed.init_notMem h]
  | active =>
    rw [hs] at h
    obtain ⟨failed, hfailed, rfl⟩ := h
    simp [hfailed.finalize_notMem]
  | finalized =>
    rw [hs] at h
    obtain ⟨failed, -, rfl⟩ := h
    exact iff_of_false LifecycleState.noConfusion fun hlog => hlog.2 0 List.mem_cons_self
  | finalizeFailed =>
    rw [hs] at h
    obtain ⟨failed, code, -, -, rfl⟩ := h
    exact iff_of_false LifecycleState.noConfusion fun hlog => hlog.2 code List.mem_cons_self
  | initializing | finalizing =>
    rw [hs] at h
    exact h.elim

end Follows

/-! ## Results -/

/-- The log only grows. -/
theorem log_suffix {p : Platform} {t t' : Sys × List NativeCall}
    (h : Reaches (LoggedStep p) (fun _ _ => True) t t') : t.2 <:+ t'.2 := by
  refine h.invariant (P := fun u => t.2 <:+ u.2) ?_ List.suffix_rfl
  rintro ⟨s, log⟩ c ⟨s', log'⟩ - ⟨-, rfl⟩ hsuffix
  exact hsuffix.trans (List.suffix_append _ _)

/-- In every run, whatever the backend answers: `MPI_Init` succeeds at most once, `MPI_Finalize` is
called at most once, after that, and no `MPI_Init` follows it; a finalized facade is initialized, it
is active exactly between the two calls, and no later state takes back that MPI was initialized or
finalized. -/
theorem lifecycle_disciplined {p : Platform} {t : Sys × List NativeCall}
    (h : Reaches (LoggedStep p) (fun _ _ => True) (Sys.initial, []) t) :
    Disciplined t.2 ∧
    (Flagged mpiFinalized t.1.core → Flagged mpiInitialized t.1.core) ∧
    (isInitialized t.1.core = 1 ↔ .init 0 ∈ t.2 ∧ ∀ code, .finalize code ∉ t.2) ∧
    ∀ t', Reaches (LoggedStep p) (fun _ _ => True) t t' →
      (Flagged mpiInitialized t.1.core → Flagged mpiInitialized t'.1.core) ∧
      (Flagged mpiFinalized t.1.core → Flagged mpiFinalized t'.1.core) := by
  have hfollows := Follows.of_reaches h
  refine ⟨hfollows.disciplined, fun hfin => ?_, ?_, fun t' hlater => ?_⟩
  · rw [flagged_mpiInitialized_iff, (flagged_mpiFinalized_iff _).1 hfin]
    simp
  · rw [isInitialized_eq_one_iff, hfollows.active_iff]
  · have hfollows' := Follows.of_reaches (h.trans hlater)
    have hsuffix := log_suffix hlater
    rw [hfollows.initialized_iff, hfollows'.initialized_iff, hfollows.finalized_iff,
      hfollows'.finalized_iff]
    exact ⟨hsuffix.mem, hsuffix.mem⟩

/-- A failed start, one that succeeds and a finalization. -/
def fullCycle : List Call :=
  [⟨.init, .offering (some mpichLibrary) 1⟩, ⟨.init, .offering (some mpichLibrary) 0⟩,
    ⟨.finalize, .offering none 0⟩]

/-- After a full cycle, MPI is finalized, and stays so. -/
theorem lifecycle_disciplined_fullCycle : ∃ t,
    Reaches (LoggedStep .linux) (fun _ _ => True) (Sys.initial, []) t ∧
    Flagged mpiFinalized t.1.core ∧ Flagged mpiInitialized t.1.core ∧ Disciplined t.2 := by
  have hrun : ((Sys.initial.afterAll .linux fullCycle).map fun s => s.core.gState) =
      some .finalized := by decide +kernel
  obtain ⟨s, hs, hstate⟩ := Option.map_eq_some_iff.1 hrun
  have hplain : Reaches (Step .linux) (fun _ _ => True) Sys.initial s :=
    reaches_afterAll .refl (fun _ _ _ => trivial) hs
  obtain ⟨log, hreach⟩ : ∃ log,
      Reaches (LoggedStep .linux) (fun _ _ => True) (Sys.initial, []) (s, log) :=
    hplain.recorded _
  obtain ⟨hdisciplined, hinitialized, -⟩ := lifecycle_disciplined hreach
  have hfinalized := (flagged_mpiFinalized_iff s.core).2 hstate
  exact ⟨_, hreach, hfinalized, hinitialized hfinalized, hdisciplined⟩

end UniMPI
