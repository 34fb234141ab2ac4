import UniMPI.Sharing

/-!
# Diagnostics

`unimpi_diagnose_backend` loads a library, looks for some symbols and unloads it. It
may be called at any time, and on the library in use, which then is open twice for a
while. `diagnoses_invisible` : the other calls of a program answer as they do without
the diagnoses between them.
-/

namespace UniMPI

open Runs

/-- What a diagnosis prints, but for the environment: how loading ends, and the backend and the
required symbols of a library that is loaded. -/
structure Diagnosis where
  code : ReturnCode
  findings : Option (BackendType × List (String × Bool))
  deriving DecidableEq

/-- `required_symbols` -/
def requiredSymbols : List String :=
  ["MPI_Init", "MPI_Finalize", "MPI_Comm_size", "MPI_Comm_rank", "MPI_Send", "MPI_Recv"]

/-- `unimpi_diagnose_backend`; there is no path where the caller passes `NULL`. -/
def diagnoseBackend (p : Platform) (env : Env) (libPath : Option CString) (st : State) :
    Diagnosis × State :=
  match libPath with
  | none => (⟨.errNoBackend, none⟩, st)
  | some path =>
    match loaderLoad env path with
    | .error ret => (⟨ret, none⟩, st)
    | .ok L =>
      let st := { st with linker := st.linker.openLib L.handle }
      let found := requiredSymbols.map fun symbol => (symbol, L.exports symbol)
      (⟨.ok, some (identifyBackend p L, found)⟩,
        { st with linker := st.linker.closeLib L.handle })

/-- A diagnosis leaves the facade alone, and a library it opens it closes. -/
theorem diagnoseBackend_state (p : Platform) (env : Env) (libPath : Option CString) (st : State) :
    (diagnoseBackend p env libPath st).2 = st ∨ ∃ handle, (diagnoseBackend p env libPath st).2 =
      { st with linker := (st.linker.openLib handle).closeLib handle } := by
  unfold diagnoseBackend
  cases libPath with
  | none => exact Or.inl rfl
  | some path =>
    dsimp only
    cases loaderLoad env path with
    | error ret => exact Or.inl rfl
    | ok L => exact Or.inr ⟨L.handle, rfl⟩

/-- A call, or a diagnosis between the calls. -/
inductive Event
  | call (c : Call)
  | diagnose (env : Env) (libPath : Option CString)

def Event.call? : Event → Option Call
  | call c => some c
  | diagnose _ _ => none

/-- The facade after a diagnosis. -/
def Sys.diagnosed (p : Platform) (env : Env) (libPath : Option CString) (s : Sys) : Sys :=
  ⟨(diagnoseBackend p env libPath s.core).2, s.unmatched⟩

/-- The answers of the calls among the events, and the state then. -/
def Sys.attend (p : Platform) : Option Sys → List Event → List (Option ReturnCode) × Option Sys
  | s, [] => ([], s)
  | s, .call c :: events =>
    let r := stopping (Sys.respond p) s c
    let rest := attend p r.2 events
    (r.1 :: rest.1, rest.2)
  | s, .diagnose env libPath :: events => attend p (s.map (Sys.diagnosed p env libPath)) events

section

variable {p : Platform} {env : Env} {libPath : Option CString} {a : Sharing} {s : Sys}

/-- Opening and closing a library disturbs nothing. -/
theorem Held.reopened {st : State} (h : Held st) (handle : ℕ) :
    Held { st with linker := (st.linker.openLib handle).closeLib handle } where
  unloaded := h.unloaded
  unheld := h.unheld
  balanced := h.balanced.openLib_closeLib handle
  open_of_handle L hL := (Linker.isOpen_openLib_closeLib ..).2 (h.open_of_handle L hL)

theorem Views.diagnosed (hv : Views p a s) : Views p a (s.diagnosed p env libPath) := by
  unfold Sys.diagnosed
  rcases diagnoseBackend_state p env libPath s.core with heq | ⟨handle, heq⟩
  · rw [heq]
    exact hv
  · rw [heq]
    exact {
      toHeld := hv.toHeld.reopened handle
      refcount := hv.refcount
      settled := hv.settled
      stands := ⟨hv.stands.state, hv.stands.handle, hv.stands.loaded, fun held hheld =>
        (hv.stands.installed held hheld).congr rfl rfl rfl⟩
      unmatched := hv.unmatched
      neutral := hv.neutral }

theorem attend_related {events : List Event} {a : Option Sharing} {s : Option Sys}
    (hv : Option.Rel (Views p) a s)
    (hobeys : AllSteps (fun a c => (stopping (Sharing.respond p) a c).2)
      (fun a c => ∀ x ∈ a, x.Permits c) a (events.filterMap Event.call?)) :
    (Sys.attend p s events).1 =
        (answers (stopping (Sharing.respond p)) a (events.filterMap Event.call?)).1 ∧
      Option.Rel (Views p)
        (answers (stopping (Sharing.respond p)) a (events.filterMap Event.call?)).2
        (Sys.attend p s events).2 := by
  induction events generalizing a s with
  | nil => exact ⟨rfl, hv⟩
  | cons event events ih =>
    cases event with
    | call c =>
      obtain ⟨hanswer, hnext⟩ := stopping_related hv fun x hx y hxy =>
        hxy.respond (hobeys.1 x hx)
      obtain ⟨hanswers, hlast⟩ := ih hnext hobeys.2
      refine ⟨?_, hlast⟩
      simp only [Sys.attend, List.filterMap_cons, Event.call?, answers]
      rw [hanswer, hanswers]
    | diagnose env libPath =>
      refine ih ?_ hobeys
      cases hv with
      | none => exact .none
      | some hv => exact .some hv.diagnosed

end

/-- The calls answer as they do without the diagnoses, and in the end the facade stands as the
abstract one does after the calls alone. -/
theorem diagnoses_invisible {p : Platform} {events : List Event}
    (h : (Sharing.closed .idle).Obeys p (events.filterMap Event.call?)) :
    (Sys.attend p (some .initial) events).1 =
        (Sys.initial.run p (events.filterMap Event.call?)).1 ∧
      Option.Rel (Views p) ((Sharing.closed .idle).run p (events.filterMap Event.call?)).2
        (Sys.attend p (some .initial) events).2 := by
  obtain ⟨hanswers, hlast⟩ := attend_related (.some Views.initial) h
  exact ⟨hanswers.trans (facade_refines h).1, hlast⟩

/-- The library in use is diagnosed before every call. -/
def diagnosedCalls : List Event :=
  enclosingCalls.flatMap fun c =>
    [.diagnose (.offering (some mpichLibrary) 0) (some "libmpi.so.40".toList), .call c]

theorem diagnoses_invisible_enclosing :
    (Sys.attend .linux (some .initial) diagnosedCalls).1 =
      (Sys.initial.run .linux enclosingCalls).1 := by
  have hcalls : diagnosedCalls.filterMap Event.call? = enclosingCalls := rfl
  have h := @diagnoses_invisible .linux diagnosedCalls (hcalls ▸ obeys_enclosingCalls)
  rw [hcalls] at h
  exact h.1

end UniMPI
