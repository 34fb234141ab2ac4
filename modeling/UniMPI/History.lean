import UniMPI.Lifecycle

/-!
# What earlier attempts leave behind

After failed attempts, initialising a library should give the values a fresh
process gets (`SameAsFresh`). A fill overwrites what its backend assigns, and only
that: a variable that an earlier backend has assigned and this one does not keeps
the earlier value, since `unimpi_vtable_cleanup` resets three variables only.

`Clean` says which parts of the tables must still be initial for a library, and
`sameAsFresh_iff_clean` that nothing else matters. `Compatible` is the condition on
an attempt: its library is filled as the same backend, or a failed Open MPI fill
has bound nothing that this backend leaves alone. `sameAsFresh_iff` shows it exact.
-/

namespace UniMPI

open Runs

/-- An attempt to initialise that returns an error. -/
def Failed (p : Platform) (st : State) (c : Call) (st' : State) : Prop :=
  c.op.initializes = true ∧ ∃ ret, ret ≠ .ok ∧ exec p c.op c.env st = .ok (ret, st')

/-- The values after filling the tables for `L` are those of a fresh process. -/
def SameAsFresh (p : Platform) (L : Library) (st : State) : Prop :=
  ∀ env path t, loadOutcome p env path st = .filled L t →
    ∃ t₀, loadOutcome p env path State.initial = .filled L t₀ ∧
      t.unimpi = t₀.unimpi ∧ t.unimpiMt = t₀.unimpiMt ∧ t.globals = t₀.globals

/-! ## What a backend assigns -/

/-- The values a backend assigns. -/
def backendValue : BackendType → Library → Global → Option Int
  | .openmpi => openmpiValue
  | .intelmpi => intelmpiValue
  | .msmpi => msmpiValue
  | .mpich | .unknown => mpichValue

/-- Whether a backend assigns a variable. -/
def Global.assignedBy (b : BackendType) (g : Global) : Bool :=
  (backendValue b ⟨0, fun _ => 0, fun _ => 0⟩ g).isSome

/-- Which variables a backend assigns does not depend on the library. -/
theorem backendValue_isSome (b : BackendType) (L : Library) (g : Global) :
    (backendValue b L g).isSome = g.assignedBy b := by
  cases b <;> cases g <;> rfl

theorem fill_globals {b : BackendType} {L : Library} {t t' : Tables} (h : fill b L t = some t') :
    t'.globals = assign (backendValue b L) t.globals := by
  cases b with
  | openmpi =>
    obtain ⟨-, rfl⟩ := fill_openmpi_eq_some_iff.1 h
    rfl
  | unknown | mpich | intelmpi | msmpi =>
    cases h
    rfl

theorem backendValue_eq_none_iff {b : BackendType} {L : Library} {g : Global} :
    backendValue b L g = none ↔ g.assignedBy b = false := by
  rw [← backendValue_isSome b L g, Option.isSome_eq_false_iff, Option.isNone_iff_eq_none]

/-- Every backend assigns the variables that are reset. -/
theorem assignedBy_statusIgnore (b : BackendType) : Global.assignedBy b .statusIgnore = true := by
  cases b <;> rfl

theorem ne_statusIgnore_of_unassigned {b : BackendType} {g : Global} (h : g.assignedBy b = false) :
    g ≠ .statusIgnore := by
  rintro rfl
  exact absurd (assignedBy_statusIgnore b) (ne_true_of_eq_false h)

theorem vtableInitStart_globals {t : Tables} {g : Global} (hg : g ≠ .statusIgnore) :
    (vtableInitStart t).globals g = t.globals g := by
  unfold vtableInitStart assign
  dsimp only
  split
  · exact absurd rfl hg
  · rfl

/-! ## What must still be initial -/

/-- The parts of the tables that filling them for `L` leaves alone are initial. -/
structure Clean (b : BackendType) (L : Library) (t : Tables) : Prop where
  globals : ∀ g : Global, g.assignedBy b = false → t.globals g = g.initial
  unimpi : b ≠ .openmpi → ∀ s : Slot, s.kind = .typeArray → L.exports s.symbol = false →
    t.unimpi s = .null

theorem Clean.initial (b : BackendType) (L : Library) : Clean b L .initial :=
  ⟨fun _ _ => rfl, fun _ _ _ _ => rfl⟩

section Fill

variable {b : BackendType} {L : Library} {t t' t₀' : Tables}

theorem fill_global_of_unassigned {g : Global} (h : fill b L (vtableInitStart t) = some t')
    (hg : g.assignedBy b = false) : t'.globals g = t.globals g := by
  rw [fill_globals h, assign_of_none (backendValue_eq_none_iff.2 hg),
    vtableInitStart_globals (ne_statusIgnore_of_unassigned hg)]

theorem fill_global_of_assigned {g : Global} {v : Int} (h : fill b L t = some t')
    (hg : backendValue b L g = some v) : t'.globals g = v := by
  rw [fill_globals h, assign_of_some hg]

/-- A fill of an integer-handle backend leaves a member alone only if its kind is `typeArray` and
the library lacks the symbol. -/
theorem fill_unimpi_of_lacking (hb : b ≠ .openmpi) (h : fill b L t = some t') {s : Slot}
    (hs : s.kind = .typeArray) (he : L.exports s.symbol = false) : t'.unimpi s = t.unimpi s := by
  have hlegacy : ∀ b value, (legacyFill b value L t).unimpi s = t.unimpi s := by
    intro b value
    simp [legacyFill, legacyEntry, hs, he]
  cases b with
  | openmpi => exact absurd rfl hb
  | unknown | mpich | intelmpi | msmpi =>
    cases h
    exact hlegacy _ _

theorem fill_unimpi_congr {t₀ : Tables} (h : fill b L t = some t') (h₀ : fill b L t₀ = some t₀')
    (hagree : b ≠ .openmpi → ∀ s : Slot, s.kind = .typeArray → L.exports s.symbol = false →
      t.unimpi s = t₀.unimpi s) : t'.unimpi = t₀'.unimpi := by
  cases b with
  | openmpi =>
    obtain ⟨-, rfl⟩ := fill_openmpi_eq_some_iff.1 h
    obtain ⟨-, rfl⟩ := fill_openmpi_eq_some_iff.1 h₀
    rfl
  | unknown | mpich | intelmpi | msmpi =>
    cases h
    cases h₀
    ext s
    exact legacyFill_unimpi _ _ L t t₀ s (hagree (by decide) s)

/-- Two fills for one library agree exactly if the earlier tables are clean. -/
theorem fill_agree_iff_clean (h : fill b L (vtableInitStart t) = some t')
    (h₀ : fill b L (vtableInitStart .initial) = some t₀') :
    (t'.unimpi = t₀'.unimpi ∧ t'.unimpiMt = t₀'.unimpiMt ∧ t'.globals = t₀'.globals) ↔
      Clean b L t := by
  constructor
  · rintro ⟨hunimpi, -, hglobals⟩
    refine ⟨fun g hg => ?_, fun hb s hs he => ?_⟩
    · have hsame := congrFun hglobals g
      rw [fill_global_of_unassigned h hg, fill_global_of_unassigned h₀ hg] at hsame
      exact hsame
    · have hsame := congrFun hunimpi s
      rw [fill_unimpi_of_lacking hb h hs he, fill_unimpi_of_lacking hb h₀ hs he] at hsame
      exact hsame
  · intro hclean
    refine ⟨fill_unimpi_congr h h₀ hclean.unimpi, ?_, ?_⟩
    · rw [fill_unimpiMt h, fill_unimpiMt h₀]
    · ext1 g
      cases hg : g.assignedBy b with
      | false =>
        rw [fill_global_of_unassigned h hg, fill_global_of_unassigned h₀ hg, hclean.globals g hg]
        rfl
      | true =>
        rw [← backendValue_isSome b L] at hg
        obtain ⟨v, hv⟩ := Option.isSome_iff_exists.1 hg
        rw [fill_global_of_assigned h hv, fill_global_of_assigned h₀ hv]

end Fill

theorem exists_fill_of_fill {b : BackendType} {L : Library} {t t' : Tables} (t₀ : Tables)
    (h : fill b L t = some t') : ∃ t₀', fill b L t₀ = some t₀' := by
  cases b with
  | openmpi =>
    obtain ⟨hcomms, -⟩ := fill_openmpi_eq_some_iff.1 h
    exact ⟨_, fill_openmpi_eq_some_iff.2 ⟨hcomms, rfl⟩⟩
  | unknown | mpich | intelmpi | msmpi => exact ⟨_, rfl⟩

theorem loadOutcome_eq_filled {p : Platform} {env : Env} {path : CString} {st : State}
    {L : Library} {t : Tables} (hload : loaderLoad env path = .ok L)
    (hcore : validateCore L = true)
    (hret : checkPlatformSupport p (identifyBackend p L) st.gBackendIdentity.backendName = .ok)
    (hfill : fill (identifyBackend p L) L (vtableInitStart st.tables) = some t) :
    loadOutcome p env path st = .filled L t := by
  simp [loadOutcome, hload, hcore, hret, hfill]

/-- A library that a fresh process can fill the tables for. -/
def Fillable (p : Platform) (L : Library) : Prop :=
  ∃ env path t, loadOutcome p env path State.initial = .filled L t

/-- Without a backend name, what matters is that the tables are clean. -/
theorem sameAsFresh_iff_clean {p : Platform} {L : Library} {st : State} (hL : Fillable p L)
    (hname : st.gBackendIdentity.backendName = none) :
    SameAsFresh p L st ↔ Clean (identifyBackend p L) L st.tables := by
  obtain ⟨env, path, t₀, ho⟩ := hL
  obtain ⟨hload, hcore, hret, hfill⟩ := loaderLoad_of_filled ho
  constructor
  · intro h
    obtain ⟨t, ht⟩ := exists_fill_of_fill (vtableInitStart st.tables) hfill
    have hst : loadOutcome p env path st = .filled L t := by
      refine loadOutcome_eq_filled hload hcore ?_ ht
      rw [hname]
      exact hret
    obtain ⟨t₁, ho₁, hagree⟩ := h env path t hst
    exact (fill_agree_iff_clean ht (loaderLoad_of_filled ho₁).2.2.2).1 hagree
  · intro hclean env' path' t hst
    obtain ⟨hload', -, -, ht⟩ := loaderLoad_of_filled hst
    exact ⟨t₀, loadOutcome_eq_filled hload' hcore hret hfill,
      (fill_agree_iff_clean ht hfill).2 hclean⟩

/-! ## States after failed attempts -/

/-- Nothing is loaded, and another attempt is admitted. -/
structure Retryable (st : State) : Prop where
  inv : Inv ⟨st, 0⟩
  unloaded : st.gBackendLoaded = false
  admitted : checkCanInitialize st = .ok
  unnamed : st.gBackendIdentity.backendName = none

theorem Retryable.initial : Retryable State.initial :=
  ⟨Inv.initial, rfl, rfl, rfl⟩

/-- A failed attempt has bad arguments, fails in loading, or fails to start what it has loaded. -/
theorem Failed.cases {p : Platform} {st st' : State} {c : Call} (h : Failed p st c st')
    (hst : Retryable st) :
    st' = st ∧ c.op.path p c.env = none ∨
      ∃ path, c.op.path p c.env = some path ∧
        ((loadOutcome p c.env path st).code ≠ .ok ∧
            st' = { (loadOutcome p c.env path st).apply p path st with gState := .initFailed } ∨
          ∃ L t, loadOutcome p c.env path st = .filled L t ∧
            st' = abandonedState p path st L t) := by
  obtain ⟨op, env⟩ := c
  obtain ⟨hop, ret, hret, hexec⟩ := h
  dsimp only at hop hexec ⊢
  cases exec_effect hexec with
  | refused hret' hwhy =>
    rcases hwhy with ⟨rfl, -⟩ | ⟨-, hnone | hrefused⟩
    · cases hop
    · exact Or.inl ⟨rfl, hnone⟩
    · exact absurd hst.admitted hrefused
  | loadFailed hcheck hpath hl ho => exact Or.inr ⟨_, hpath, Or.inl ⟨ho, rfl⟩⟩
  | initFailed hcheck hpath hready hret' =>
    rcases initFailedState_cases hst.inv hready with ⟨-, hl, -⟩ | ⟨L, t, ho, -, heq⟩
    · exact absurd hl (ne_true_of_eq_false hst.unloaded)
    · exact Or.inr ⟨_, hpath, Or.inr ⟨L, t, ho, heq⟩⟩
  | started level hcheck hpath hready hret' hlevel => exact absurd rfl hret
  | finalized | mpitLoadFailed | mpitStarted | mpitFinalized => cases hop

theorem Retryable.step {p : Platform} {st st' : State} {c : Call} (h : Failed p st c st')
    (hst : Retryable st) : Retryable st' := by
  have hinv : Inv ⟨st', 0⟩ := by
    obtain ⟨hop, ret, hret, hexec⟩ := h
    have hne : c.op ≠ .mpitFinalize := by
      intro heq
      rw [heq] at hop
      cases hop
    have hstep := @Step.of_exec p ⟨st, 0⟩ c ret st' hne hexec
    rw [show Sys.unmatchedAfter p ⟨st, 0⟩ c = 0 from Sys.unmatchedAfter_of_initializes hop]
      at hstep
    exact hst.inv.step hstep
  rcases h.cases hst with ⟨rfl, -⟩ | ⟨path, -, ⟨ho, rfl⟩ | ⟨L, t, -, rfl⟩⟩
  · exact hst
  · refine ⟨hinv, (LoadOutcome.apply_gBackendLoaded _ _ _ _).trans hst.unloaded, rfl, ?_⟩
    exact (congrArg _ (LoadOutcome.apply_identity_of_failed ho)).trans hst.unnamed
  · exact ⟨hinv, hst.unloaded, rfl, rfl⟩

theorem Retryable.of_reaches {p : Platform} {C : State → Call → Prop} {st : State}
    (h : Reaches (Failed p) C State.initial st) : Retryable st :=
  h.invariant (fun _ _ _ _ hstep hst => hst.step hstep) Retryable.initial

/-! ## What an attempt may leave -/

/-- The attempt leaves nothing that filling for `L` would keep: its library is filled as the same
backend, or as Open MPI in part, without the callbacks that the backend of `L` does not assign and
without the members that `L` lacks. -/
def Compatible (p : Platform) (L : Library) (st : State) (c : Call) : Prop :=
  ∀ path, c.op.path p c.env = some path →
    match loadOutcome p c.env path st with
    | .filled L' _ => identifyBackend p L' = identifyBackend p L
    | .unfilled L' => identifyBackend p L ≠ .openmpi →
      (∀ (g : Global) symbol, openmpiCallbackSymbol g = some symbol →
        g.assignedBy (identifyBackend p L) = false → L'.exports symbol = false) ∧
      ∀ s : Slot, s.kind = .typeArray → L.exports s.symbol = false → L'.exports s.symbol = false
    | _ => True

/-- A variable that one backend sets to another value than its initial one and the other does not
assign. -/
def signature : BackendType → BackendType → Global
  | .openmpi, _ => .procNull
  | _, .openmpi => .lockExclusive
  | .mpich, _ => .errRmaRange
  | _, _ => .errAbi

/-- The backends of one platform can be told apart by what they leave. -/
theorem signature_spec {p : Platform} {b' b : BackendType} (h' : backendSupported p b' = true)
    (h : backendSupported p b = true) (hne : b' ≠ b) (L' : Library) :
    (signature b' b).assignedBy b = false ∧
      ∃ v, backendValue b' L' (signature b' b) = some v ∧ v ≠ (signature b' b).initial := by
  cases p <;> cases b' <;> cases b <;> first
    | exact absurd rfl hne
    | exact absurd h (by decide)
    | exact absurd h' (by decide)
    | exact ⟨rfl, _, rfl, by decide⟩

theorem vtableCleanup_globals {b : BackendType} {t : Tables} {g : Global}
    (hg : g.assignedBy b = false) : (vtableCleanup t).globals g = t.globals g := by
  unfold vtableCleanup assign
  dsimp only
  split
  iterate 3 cases b <;> cases hg
  rfl

/-- A cleared table is clean for `L` exactly if it was filled as the same backend. -/
theorem clean_cleanup_iff {b b' : BackendType} {p : Platform} {L L' : Library} {t t' : Tables}
    (h' : backendSupported p b' = true) (h : backendSupported p b = true)
    (hfill : fill b' L' (vtableInitStart t) = some t') (hclean : Clean b L t) :
    Clean b L (vtableCleanup t') ↔ b' = b := by
  constructor
  · intro hcleared
    by_contra hne
    obtain ⟨hg, v, hv, hvne⟩ := signature_spec h' h hne L'
    have hkept := hcleared.globals _ hg
    rw [vtableCleanup_globals hg, fill_global_of_assigned hfill hv] at hkept
    exact hvne hkept
  · rintro rfl
    refine ⟨fun g hg => ?_, fun _ _ _ _ => rfl⟩
    rw [vtableCleanup_globals hg, fill_global_of_unassigned hfill hg]
    exact hclean.globals g hg

/-- The attribute callbacks start as null, and Open MPI assigns them all. -/
theorem openmpiCallbackSymbol_spec {g : Global} {symbol : String}
    (h : openmpiCallbackSymbol g = some symbol) :
    g.initial = 0 ∧ g.assignedBy .openmpi = true := by
  unfold openmpiCallbackSymbol at h
  split at h <;> first
    | exact ⟨rfl, rfl⟩
    | cases h

theorem afterComms_of_typeArray {s : Slot} (hs : s.kind = .typeArray) : s.afterComms = false := by
  unfold Slot.afterComms
  split <;> first
    | rfl
    | cases hs

theorem symbolValue_eq_zero_iff {L : Library} {symbol : String} :
    L.symbolValue symbol = 0 ↔ L.exports symbol = false := by
  simp [Library.symbolValue, Library.exports]

section Unfilled

variable {L' : Library} {t : Tables}

theorem openmpiFillStart_callback {g : Global} {symbol : String}
    (h : openmpiCallbackSymbol g = some symbol) :
    (openmpiFillStart L' t).globals g = L'.symbolValue symbol :=
  assign_of_some (by rw [openmpiCallback, h, Option.map_some])

theorem openmpiFillStart_other {g : Global} (h : openmpiCallbackSymbol g = none) :
    (openmpiFillStart L' t).globals g = t.globals g :=
  assign_of_none (by rw [openmpiCallback, h, Option.map_none])

theorem openmpiFillStart_typeArray {s : Slot} (hs : s.kind = .typeArray) :
    (openmpiFillStart L' t).unimpi s = L'.bind s.symbol := by
  simp [openmpiFillStart, afterComms_of_typeArray hs, openmpiEntry, hs]

/-- What a failed Open MPI fill has done is clean for `L` exactly if `L` overwrites all of it. -/
theorem clean_unfilled_iff {b : BackendType} {L : Library} (hclean : Clean b L t) :
    Clean b L (openmpiFillStart L' (vtableInitStart t)) ↔ (b ≠ .openmpi →
      (∀ (g : Global) symbol, openmpiCallbackSymbol g = some symbol → g.assignedBy b = false →
        L'.exports symbol = false) ∧
      ∀ s : Slot, s.kind = .typeArray → L.exports s.symbol = false →
        L'.exports s.symbol = false) := by
  constructor
  · intro h hb
    refine ⟨fun g symbol hsymbol hg => ?_, fun s hs he => ?_⟩
    · have hinitial := h.globals g hg
      rw [openmpiFillStart_callback hsymbol, (openmpiCallbackSymbol_spec hsymbol).1] at hinitial
      exact symbolValue_eq_zero_iff.1 hinitial
    · have hnull := h.unimpi hb s hs he
      rw [openmpiFillStart_typeArray hs] at hnull
      exact (L'.bind_eq_null_iff _).1 hnull
  · intro h
    refine ⟨fun g hg => ?_, fun hb s hs he => ?_⟩
    · cases hsymbol : openmpiCallbackSymbol g with
      | none =>
        rw [openmpiFillStart_other hsymbol,
          vtableInitStart_globals (ne_statusIgnore_of_unassigned hg)]
        exact hclean.globals g hg
      | some symbol =>
        obtain ⟨hinitial, hassigned⟩ := openmpiCallbackSymbol_spec hsymbol
        have hb : b ≠ .openmpi := by
          rintro rfl
          exact absurd hassigned (ne_true_of_eq_false hg)
        rw [openmpiFillStart_callback hsymbol, hinitial]
        exact symbolValue_eq_zero_iff.2 ((h hb).1 g symbol hsymbol hg)
    · rw [openmpiFillStart_typeArray hs]
      exact (L'.bind_eq_null_iff _).2 ((h hb).2 s hs he)

end Unfilled

theorem Clean.vtableInitStart {b : BackendType} {L : Library} {t : Tables} (h : Clean b L t) :
    Clean b L (vtableInitStart t) := by
  refine ⟨fun g hg => ?_, h.unimpi⟩
  rw [vtableInitStart_globals (ne_statusIgnore_of_unassigned hg)]
  exact h.globals g hg

theorem compatible_iff_of_path {p : Platform} {L : Library} {st : State} {c : Call}
    {path : CString} (hpath : c.op.path p c.env = some path) :
    Compatible p L st c ↔ match loadOutcome p c.env path st with
      | .filled L' _ => identifyBackend p L' = identifyBackend p L
      | .unfilled L' => identifyBackend p L ≠ .openmpi →
        (∀ (g : Global) symbol, openmpiCallbackSymbol g = some symbol →
          g.assignedBy (identifyBackend p L) = false → L'.exports symbol = false) ∧
        ∀ s : Slot, s.kind = .typeArray → L.exports s.symbol = false → L'.exports s.symbol = false
      | _ => True := by
  refine ⟨fun h => h path hpath, fun h path' hpath' => ?_⟩
  cases hpath.symm.trans hpath'
  exact h

/-- An attempt keeps the tables clean for `L` exactly if it is compatible with `L`. -/
theorem clean_step_iff {p : Platform} {L : Library} {st st' : State} {c : Call}
    (hL : Fillable p L) (h : Failed p st c st') (hst : Retryable st)
    (hclean : Clean (identifyBackend p L) L st.tables) :
    Clean (identifyBackend p L) L st'.tables ↔ Compatible p L st c := by
  obtain ⟨env₀, path₀, t₀, ho₀⟩ := hL
  have hsupported := backendSupported_of_check (loaderLoad_of_filled ho₀).2.2.1
  rcases h.cases hst with ⟨rfl, hnone⟩ | ⟨path, hpath, ⟨ho, rfl⟩ | ⟨L', t, ho, rfl⟩⟩
  · refine iff_of_true hclean fun path hpath => ?_
    rw [hnone] at hpath
    cases hpath
  · rw [compatible_iff_of_path hpath]
    cases hout : loadOutcome p c.env path st with
    | notLoaded ret => exact iff_of_true hclean trivial
    | missingCore L' | refused L' ret => exact iff_of_true hclean.vtableInitStart trivial
    | unfilled L' => exact clean_unfilled_iff hclean
    | filled L' t =>
      rw [hout] at ho
      exact absurd rfl ho
  · obtain ⟨-, -, hret, hfill⟩ := loaderLoad_of_filled ho
    rw [compatible_iff_of_path hpath, ho]
    exact clean_cleanup_iff (backendSupported_of_check hret) hsupported hfill hclean

/-! ## Results -/

/-- Along compatible attempts, initialising `L` gives the values of a fresh process, and a failed
attempt keeps this so exactly if it is compatible. -/
theorem sameAsFresh_iff {p : Platform} {L : Library} {st : State} (hL : Fillable p L)
    (h : Reaches (Failed p) (Compatible p L) State.initial st) :
    SameAsFresh p L st ∧
      ∀ c st', Failed p st c st' → (SameAsFresh p L st' ↔ Compatible p L st c) := by
  have hst := Retryable.of_reaches h
  have hclean : Clean (identifyBackend p L) L st.tables :=
    h.invariant_with (P := fun st => Clean (identifyBackend p L) L st.tables)
      (fun _ ht => Retryable.of_reaches ht)
      (fun _ _ _ ht hC hstep hclean => (clean_step_iff hL hstep ht hclean).2 hC) (Clean.initial _ _)
  refine ⟨(sameAsFresh_iff_clean hL hst.unnamed).2 hclean, fun c st' hstep => ?_⟩
  rw [sameAsFresh_iff_clean hL (hst.step hstep).unnamed]
  exact clean_step_iff hL hstep hst hclean

/-- An attempt with a library whose `MPI_Init` fails. -/
def failingInit (L : Library) : Call :=
  ⟨.init, .offering (some L) 1⟩

theorem fillable_mpichLibrary : Fillable .linux mpichLibrary := by
  have hcode : (loadOutcome .linux (.offering (some mpichLibrary) 0) "libmpi.so.40".toList
      State.initial).code = .ok := by decide +kernel
  obtain ⟨t, ho⟩ := exists_filled_offering hcode
  exact ⟨_, _, t, ho⟩

/-- A second attempt with the same library finds what the first would have found. -/
theorem sameAsFresh_iff_retry : ∃ st, Failed .linux State.initial (failingInit mpichLibrary) st ∧
    SameAsFresh .linux mpichLibrary st := by
  obtain ⟨st, hexec⟩ := @exists_ok_of_codeOf
    (exec .linux .init (.offering (some mpichLibrary) 1) State.initial) .errBackendLoad
    (by decide +kernel)
  have hfailed : Failed .linux State.initial (failingInit mpichLibrary) st :=
    ⟨rfl, .errBackendLoad, nofun, hexec⟩
  have hcompatible : Compatible .linux mpichLibrary State.initial (failingInit mpichLibrary) := by
    refine (@compatible_iff_of_path _ _ _ _ "libmpi.so.40".toList rfl).2 ?_
    have hcode : (loadOutcome .linux (failingInit mpichLibrary).env "libmpi.so.40".toList
        State.initial).code = .ok := by decide +kernel
    obtain ⟨t, ho⟩ := exists_filled_offering hcode
    rw [failingInit, ho]
  exact ⟨st, hfailed, (sameAsFresh_iff fillable_mpichLibrary (.tail .refl hcompatible hfailed)).1⟩

/-- A library of the Open MPI family with its communicators. -/
def openmpiFull : Library :=
  .ofSymbols 4 ["MPI_Init", "MPI_Finalize", "MPI_Comm_size", "MPI_Comm_rank",
    "ompi_mpi_comm_world", "ompi_mpi_comm_self"]

/-- After Open MPI has failed to start, an MPICH library is filled with the `MPI_PROC_NULL` of
Open MPI. -/
theorem not_sameAsFresh_openmpi : ¬∀ L st, Fillable .linux L →
    Reaches (Failed .linux) (fun _ _ => True) State.initial st → SameAsFresh .linux L st := by
  obtain ⟨st, hexec⟩ := @exists_ok_of_codeOf
    (exec .linux .init (.offering (some openmpiFull) 1) State.initial) .errBackendLoad
    (by decide +kernel)
  have hleft : ((exec .linux .init (.offering (some openmpiFull) 1) State.initial).toOption.map
      fun r => (r.2.tables.globals .procNull, (loadOutcome .linux
        (.offering (some mpichLibrary) 0) "libmpi.so.40".toList r.2).code)) =
      some (-2, .ok) := by decide +kernel
  rw [hexec] at hleft
  obtain ⟨hproc, hcode⟩ := Prod.mk.inj (Option.some.inj hleft)
  obtain ⟨t, ho⟩ := exists_filled_offering hcode
  intro h
  have hfailed : Failed .linux State.initial (failingInit openmpiFull) st :=
    ⟨rfl, .errBackendLoad, nofun, hexec⟩
  obtain ⟨t₀, ho₀, -, -, hglobals⟩ :=
    h mpichLibrary st fillable_mpichLibrary (.tail .refl trivial hfailed) _ _ t ho
  have hkept := fill_global_of_unassigned (g := .procNull) (loaderLoad_of_filled ho).2.2.2 rfl
  have hfresh := fill_global_of_unassigned (g := .procNull) (loaderLoad_of_filled ho₀).2.2.2 rfl
  rw [hglobals, hfresh] at hkept
  exact absurd (hkept.trans hproc) (by decide)

end UniMPI
