import UniMPI.BoundSlots
import UniMPI.StandardNames
import UniMPI.StatusAccesses

/-!
# Status layouts

A status has 24 bytes for every backend, but the integer-handle backends pack records of
20 bytes with the source at offset 8, and Open MPI keeps 24 bytes with the source at
offset 0. Which adapter completes requests and which reader opens the statuses is decided
by two separate members, filled and cleared over and over.

`status_layout_coherent` : after any run, a completion call that is bound ends in one
opened library, and reading slot `j` of the statuses through the readers that are bound
gives the fields of record `j` in the layout of that very library. The adapters call
`memcpy` on overlapping regions with `int` offsets, so this is for a `memcpy` that does not
mind the overlap and at most `89478486` statuses.
-/

namespace UniMPI

open ByteMemory Runs

/-! ## The layouts -/

/-- The fields of a status that have a reader. -/
inductive StatusField
  | source
  | tag
  | error

/-- Where a backend keeps its records and their fields. -/
structure Layout where
  stride : ℕ
  offset : StatusField → ℕ

/-- `struct unimpi_status_legacy`. -/
def Layout.legacy : Layout where
  stride := 20
  offset
    | .source => 8
    | .tag => 12
    | .error => 16

/-- `struct unimpi_status_openmpi`. -/
def Layout.openmpi : Layout where
  stride := 24
  offset
    | .source => 0
    | .tag => 4
    | .error => 8

/-- The layout of a backend. -/
def BackendType.layout : BackendType → Layout
  | .openmpi => .openmpi
  | .unknown | .mpich | .intelmpi | .msmpi => .legacy

/-- A field of the `j`-th record at `statuses`. -/
def Layout.field (l : Layout) (statuses j : ℕ) (f : StatusField) (m : Mem) : BitVec 32 :=
  load32 m (statuses + l.stride * j + l.offset f)

/-- `status_openmpi_get_source`, `status_openmpi_get_tag` and `status_openmpi_get_error`. -/
def statusOpenmpiGet (f : StatusField) (success : Int) (status out : ℕ) (m : Mem) : Int × Mem :=
  (success, store32 m out (load32 m (status + Layout.openmpi.offset f)))

/-- `status_legacy_get_source`, `status_legacy_get_tag` and `status_legacy_get_error`. -/
def statusLegacyGet : StatusField → Int → ℕ → ℕ → Mem → Int × Mem
  | .source => statusLegacyGetSource
  | .tag => statusLegacyGetTag
  | .error => statusLegacyGetError

/-! ## Calls through the table -/

/-- The member behind `MPI_Status_get_source`, `MPI_Status_get_tag` or `MPI_Status_get_error`. -/
def StatusField.slot : StatusField → Slot
  | .source => .statusGetSource
  | .tag => .statusGetTag
  | .error => .statusGetError

/-- The member behind a call. -/
def ArrayCall.slot : ArrayCall → Slot
  | .waitall .. => .waitall
  | .testany .. => .testany
  | .testsome .. => .testsome
  | .testall .. => .testall
  | .waitany .. => .waitany
  | .waitsome .. => .waitsome
  | .startall .. => .startall
  | .typeCreateStruct .. => .typeCreateStruct
  | .typeStruct .. => .typeStruct
  | .commSpawnMultiple _ => .commSpawnMultiple

/-- Read a field through its member. -/
def Tables.readStatus (t : Tables) (f : StatusField) (success : Int) (status out : ℕ) (m : Mem) :
    Option (Int × Mem) :=
  match t.unimpi f.slot with
  | .statusReader .openmpi => some (statusOpenmpiGet f success status out m)
  | .statusReader _ => some (statusLegacyGet f success status out m)
  | _ => none

/-- Complete requests through a member: by the adapter, or by the backend itself. -/
def Tables.complete (t : Tables) (memcpy : Mem → ℕ → ℕ → ℕ → Mem) (ignore : ℕ) (call : ArrayCall)
    (native : ArrayCall → Mem → Int × Mem) (m : Mem) : Option (Int × Mem) :=
  match t.unimpi call.slot with
  | .wrapper _ => call.runInt memcpy ignore native m
  | .native _ _ => some (native call m)
  | _ => none

/-- The memory a backend leaves: one that takes ints is called on the compressed requests. -/
def BackendType.leaves (b : BackendType) (call : ArrayCall)
    (native : ArrayCall → Mem → Int × Mem) (m : Mem) : Mem :=
  match b with
  | .openmpi => (native call m).2
  | _ => call.left native m

/-! ## One library completes and reads -/

/-- The members that complete requests and those that read statuses belong to the library. -/
structure Completes (p : Platform) (t : Tables) (L : Library) : Prop where
  requests : ∀ s : Slot, s.kind = .requestArray → t.target s = L.bind s.symbol ∧
    t.unimpi s = if identifyBackend p L = .openmpi then L.bind s.symbol
      else .wrapper (identifyBackend p L)
  readers : ∀ s : Slot, s.kind = .statusReader →
    t.unimpi s = .statusReader (identifyBackend p L)

/-- All of these members are null, or they belong to one opened library. -/
def Coherent (p : Platform) (t : Tables) (g : Provenance) : Prop :=
  (∀ s : Slot, s.kind = .requestArray ∨ s.kind = .statusReader → t.unimpi s = .null) ∨
    ∃ o ∈ g.opened, Completes p t o.library

section Coherent

variable {p : Platform} {g g' : Provenance} {t t' : Tables} {L : Library}

theorem Completes.congr (h : Completes p t L) (hunimpi : t'.unimpi = t.unimpi)
    (hnatives : t'.natives = t.natives) : Completes p t' L := by
  have htarget : ∀ s, t'.target s = t.target s := fun s => by
    unfold Tables.target
    rw [hunimpi, hnatives]
  refine ⟨fun s hs => ?_, fun s hs => ?_⟩
  · rw [htarget, hunimpi]
    exact h.requests s hs
  · rw [hunimpi]
    exact h.readers s hs

theorem Coherent.mono (h : Coherent p t g) (hunimpi : t'.unimpi = t.unimpi)
    (hnatives : t'.natives = t.natives) (hg : ∀ o ∈ g.opened, o ∈ g'.opened) :
    Coherent p t' g' := by
  rcases h with hnull | ⟨o, ho, hcompletes⟩
  · exact Or.inl fun s hs => (congrFun hunimpi s).trans (hnull s hs)
  · exact Or.inr ⟨o, hg o ho, hcompletes.congr hunimpi hnatives⟩

theorem coherent_cleanup (p : Platform) (t : Tables) (g : Provenance) :
    Coherent p (vtableCleanup t) g :=
  Or.inl fun _ _ => rfl

theorem afterComms_of_kind {s : Slot} (hs : s.kind = .requestArray ∨ s.kind = .statusReader) :
    s.afterComms = false := by
  cases s <;> first | rfl | (rcases hs with hs | hs <;> cases hs)

/-- What Open MPI binds is its own. -/
theorem completes_openmpi (hb : identifyBackend p L = .openmpi)
    (h : ∀ s : Slot, s.kind = .requestArray ∨ s.kind = .statusReader →
      t.unimpi s = openmpiEntry L s) : Completes p t L := by
  refine ⟨fun s hs => ?_, fun s hs => ?_⟩
  · have hentry : t.unimpi s = L.bind s.symbol := by
      rw [h s (Or.inl hs), openmpiEntry, hs]
    exact ⟨Tables.target_of_bind hentry, by rw [if_pos hb, hentry]⟩
  · rw [h s (Or.inr hs), openmpiEntry, hs, hb]

theorem completes_legacy {b : BackendType} (hb : identifyBackend p L = b) (hne : b ≠ .openmpi)
    (value : Library → Global → Option Int) (t : Tables) :
    Completes p (legacyFill b value L t) L := by
  refine ⟨fun s hs => ?_, fun s hs => ?_⟩
  · have hentry : (legacyFill b value L t).unimpi s = .wrapper b := by
      simp only [legacyFill, legacyEntry, hs]
    refine ⟨?_, by rw [hb, if_neg hne, hentry]⟩
    rw [Tables.target_of_wrapper hentry]
    simp only [legacyFill, if_true, legacyNative, hs]
  · simp only [legacyFill, legacyEntry, hs, hb]

/-- A fill makes the members those of its library. -/
theorem completes_of_fill (hunknown : identifyBackend p L ≠ .unknown)
    (hfill : fill (identifyBackend p L) L t = some t') : Completes p t' L := by
  cases hb : identifyBackend p L with
  | unknown => exact absurd hb hunknown
  | openmpi =>
    rw [hb] at hfill
    obtain ⟨-, rfl⟩ := fill_openmpi_eq_some_iff.1 hfill
    exact completes_openmpi hb fun _ _ => rfl
  | mpich | intelmpi | msmpi =>
    rw [hb] at hfill
    cases hfill
    exact completes_legacy hb nofun _ t

theorem openmpi_of_unfilled {env : Env} {path : CString} {st : State}
    (ho : loadOutcome p env path st = .unfilled L) : identifyBackend p L = .openmpi := by
  have hfill := (fill_of_unfilled ho).2
  cases hb : identifyBackend p L with
  | openmpi => rfl
  | unknown | mpich | intelmpi | msmpi =>
    rw [hb] at hfill
    cases hfill

theorem Coherent.load {env : Env} {path : CString} {st : State} (h : Coherent p st.tables g) :
    Coherent p ((loadOutcome p env path st).apply p path st).tables
      (g.load env path (loadOutcome p env path st)) := by
  cases ho : loadOutcome p env path st with
  | notLoaded ret => exact h
  | missingCore L | refused L ret => exact h.mono rfl rfl fun o ho => List.mem_cons_of_mem _ ho
  | unfilled L =>
    refine Or.inr ⟨⟨openedPath env path, L⟩, List.mem_cons_self, ?_⟩
    exact completes_openmpi (openmpi_of_unfilled ho) fun s hs =>
      if_neg (by rw [afterComms_of_kind hs]; exact Bool.false_ne_true)
  | filled L t =>
    obtain ⟨-, -, hcheck, hfill⟩ := loaderLoad_of_filled ho
    exact Or.inr ⟨⟨openedPath env path, L⟩, List.mem_cons_self,
      completes_of_fill (ne_unknown_of_check hcheck) hfill⟩

theorem Coherent.of_reaches {C : Sys × Provenance → Call → Prop} {t : Sys × Provenance}
    (h : Reaches (TracedStep p) C tracedInitial t) : Coherent p t.1.core.tables t.2 := by
  refine h.invariant (P := fun t => Coherent p t.1.core.tables t.2) ?_ (Or.inl fun _ _ => rfl)
  rintro ⟨s, g⟩ c ⟨s', g'⟩ - ⟨hstep, rfl⟩ hcoherent
  obtain ⟨-, ⟨ret, hexec⟩, -⟩ := hstep.cases
  have hloaded : Coherent p (c.loaded p s.core).tables (g.record p s c) := by
    unfold Call.loaded Provenance.record
    cases c.loads p s.core with
    | none => exact hcoherent
    | some path => exact hcoherent.load
  dsimp only at hexec ⊢
  rcases (exec_effect hexec).tables with heq | heq
  · rw [heq]
    exact hloaded
  · rw [heq]
    exact coherent_cleanup p _ _

end Coherent

/-! ## Reading what was completed -/

/-- A completion call that spreads statuses: `waitall`, `testall`, `waitsome` or `testsome`. -/
theorem ArrayCall.kind_of_statuses {call : ArrayCall} {statuses : ℕ} {n : StatusCount}
    (h : call.statuses = some (statuses, n)) : call.slot.kind = .requestArray := by
  cases call <;> first | rfl | cases h

/-- Whatever the output argument, reading a field of slot `j` yields `v`. -/
def ReadsField (t : Tables) (success : Int) (statuses j : ℕ) (f : StatusField) (v : BitVec 32)
    (m : Mem) : Prop :=
  ∀ out, ∃ r, t.readStatus f success (statuses + 24 * j) out m = some r ∧ Yields success out v r

section Reads

variable {p : Platform} {t : Tables} {L : Library} {memcpy : Mem → ℕ → ℕ → ℕ → Mem} {ignore : ℕ}
  {success : Int} {call : ArrayCall} {native : ArrayCall → Mem → Int × Mem} {m : Mem}
  {statuses j : ℕ} {n : StatusCount}

theorem readsField_openmpi (f : StatusField) (ht : t.unimpi f.slot = .statusReader .openmpi) :
    ReadsField t success statuses j f (Layout.openmpi.field statuses j f m) m := by
  intro out
  refine ⟨_, by rw [Tables.readStatus, ht], ?_⟩
  exact yields_store32 ..

/-- After the spreading, a legacy reader finds in slot `j` what record `j` held. -/
theorem readsField_legacy {b : BackendType} (f : StatusField) (hb : b ≠ .openmpi)
    (ht : t.unimpi f.slot = .statusReader b) {N : Int} (hj : j < N.toNat) :
    ReadsField t success statuses j f (Layout.legacy.field statuses j f m)
      (statusesExpandInplace statuses N m) := by
  intro out
  have hrecord := (statusesExpandInplace_record success statuses N m).2.1 j hj out
  refine ⟨statusLegacyGet f success (statuses + 24 * j) out (statusesExpandInplace statuses N m),
    ?_, ?_⟩
  · rw [Tables.readStatus, ht]
    cases b with
    | openmpi => exact absurd rfl hb
    | unknown | mpich | intelmpi | msmpi => rfl
  · cases f with
    | source => exact hrecord.1
    | tag => exact hrecord.2.1
    | error => exact hrecord.2.2

/-- Expanding the requests leaves the records of the array as the backend left them. -/
theorem field_beforeStatuses (hapart : call.ArgsApart statuses n) (f : StatusField)
    (hj : j < call.count.toNat) :
    Layout.legacy.field statuses j f (call.beforeStatuses native m) =
      Layout.legacy.field statuses j f (call.left native m) := by
  have hoffset : Layout.legacy.offset f ≤ 16 := by cases f <;> decide
  have hagree : AgreeOn statuses (statuses + 24 * call.count.toNat)
      (call.beforeStatuses native m) (call.left native m) := by
    intro x hlo hhi
    have := hapart.statuses
    exact expandInplace_apply_of_notMem _ _ _ (by omega)
  exact hagree.load32_eq (by omega) (by simp only [Layout.legacy] at hoffset ⊢; omega)

/-- A completion by the library the members belong to is read back as the library left it. -/
theorem Completes.reads (h : Completes p t L) (hs : call.statuses = some (statuses, n))
    (hbound : t.target call.slot ≠ .null) (hcopy : OverlapSafe memcpy)
    (hw : statusesWritable ignore statuses) (hapart : call.ArgsApart statuses n)
    (hrange : n.value ((identifyBackend p L).leaves call native m) ≤ 89478486) :
    ∃ r, t.complete memcpy ignore call native m = some r ∧
      ∀ j, j < call.count.toNat →
        j < (n.value ((identifyBackend p L).leaves call native m)).toNat → ∀ f,
        ReadsField t success statuses j f
          ((identifyBackend p L).layout.field statuses j f
            ((identifyBackend p L).leaves call native m)) r.2 := by
  have hkind := call.kind_of_statuses hs
  obtain ⟨htarget, hentry⟩ := h.requests _ hkind
  have hreader : ∀ f : StatusField, t.unimpi f.slot = .statusReader (identifyBackend p L) :=
    fun f => h.readers _ (by cases f <;> rfl)
  generalize identifyBackend p L = b at hentry hreader hrange ⊢
  by_cases hb : b = .openmpi
  · subst hb
    rw [htarget] at hbound
    have hexports := (L.bind_ne_null_iff _).1 hbound
    rw [if_pos rfl, L.bind_of_exports hexports] at hentry
    refine ⟨native call m, by rw [Tables.complete, hentry], fun j _ _ f => ?_⟩
    exact readsField_openmpi f (hreader f)
  · rw [if_neg hb] at hentry
    have hlayout : b.layout = .legacy := by
      cases b with
      | openmpi => exact absurd rfl hb
      | unknown | mpich | intelmpi | msmpi => rfl
    have hleaves : b.leaves call native m = call.left native m := by
      cases b with
      | openmpi => exact absurd rfl hb
      | unknown | mpich | intelmpi | msmpi => rfl
    rw [hleaves] at hrange ⊢
    have hrun : call.runInt memcpy ignore native m = some (call.run ignore native m) :=
      (ArrayCall.runInt_eq_some_iff hcopy).2
        ⟨(hapart.spreadsInRange_iff hs).2 fun _ => hrange, rfl⟩
    refine ⟨call.run ignore native m, by rw [Tables.complete, hentry]; exact hrun,
      fun j hj hN f => ?_⟩
    rw [hlayout, ← field_beforeStatuses hapart f hj, ArrayCall.run_snd,
      ArrayCall.materialize_some hs, expandStatuses, if_pos hw]
    rw [← hapart.value_eq] at hN
    exact readsField_legacy f hb (hreader f) hN

end Reads

/-- After any run, a bound completion call ends in one opened library, and what the bound readers
give for slot `j` is what record `j` held in the layout of that library when it returned, for copies
that do not mind an overlap and statuses within reach of the `int` products. -/
theorem status_layout_coherent {p : Platform} {t : Sys × Provenance} {call : ArrayCall}
    {statuses : ℕ} {n : StatusCount}
    (h : Reaches (TracedStep p) (fun _ _ => True) tracedInitial t)
    (hs : call.statuses = some (statuses, n))
    (hbound : t.1.core.tables.target call.slot ≠ .null) :
    ∃ o ∈ t.2.opened,
      t.1.core.tables.target call.slot = o.library.bind call.slot.symbol ∧
      ∀ memcpy ignore success native m, OverlapSafe memcpy → statusesWritable ignore statuses →
        call.ArgsApart statuses n →
        n.value ((identifyBackend p o.library).leaves call native m) ≤ 89478486 →
        ∃ r, t.1.core.tables.complete memcpy ignore call native m = some r ∧
          ∀ j, j < call.count.toNat →
            j < (n.value ((identifyBackend p o.library).leaves call native m)).toNat → ∀ f,
            ReadsField t.1.core.tables success statuses j f
              ((identifyBackend p o.library).layout.field statuses j f
                ((identifyBackend p o.library).leaves call native m)) r.2 := by
  have hkind := call.kind_of_statuses hs
  rcases Coherent.of_reaches h with hnull | ⟨o, ho, hcompletes⟩
  · refine absurd ?_ hbound
    rw [Tables.target, hnull _ (Or.inl hkind)]
  · exact ⟨o, ho, (hcompletes.requests _ hkind).1, fun _ _ _ _ _ hcopy hw hapart hrange =>
      hcompletes.reads hs hbound hcopy hw hapart hrange⟩

/-- The library of `mpichLibrary` with `MPI_Waitall`. -/
def mpichWaitallLibrary : Library :=
  .ofSymbols 1 ["MPI_Init", "MPI_Finalize", "MPI_Comm_size", "MPI_Comm_rank", "MPIR_Dup_fn",
    "MPI_Waitall"]

/-- A backend that completes two requests and reports `7` as the source of the second. -/
def completeTwo (_ : ArrayCall) (m : Mem) : Int × Mem :=
  (0, store32 m 0x11c 7#32)

/-- After `MPI_Init` over an MPICH library, a `waitall` of two requests is completed by it, and
`MPI_Status_get_source` finds in the second slot the source that the backend reported. -/
theorem status_layout_coherent_waitall : ∃ t : Sys × Provenance, ∃ o ∈ t.2.opened,
    t.1.core.tables.target .waitall = o.library.bind "MPI_Waitall" ∧
      t.1.core.tables.target .waitall ≠ .null ∧
      ∃ r, t.1.core.tables.complete copy 1 ArrayCall.waitallTwo completeTwo
          ArrayCall.countingMem = some r ∧
        ReadsField t.1.core.tables 0 0x100 1 .source 7#32 r.2 := by
  have hrun : ((Sys.initial.after .linux ⟨.init, .offering (some mpichWaitallLibrary) 0⟩).map
      fun s => decide (s.core.tables.target .waitall = .null)) = some false := by decide +kernel
  obtain ⟨s, hs, hbound⟩ := Option.map_eq_some_iff.1 hrun
  have hne := of_decide_eq_false hbound
  have hstatuses : ArrayCall.waitallTwo.statuses = some (0x100, .given 2) := rfl
  have hapart : ArrayCall.waitallTwo.ArgsApart 0x100 (.given 2) := ⟨by decide, by rintro a ⟨⟩⟩
  obtain ⟨o, ho, htarget, hreads⟩ :=
    status_layout_coherent (reaches_traced_call trivial hs) hstatuses hne
  have hlibrary : o.library = mpichWaitallLibrary := by
    rcases Provenance.mem_record_opened.1 ho with hmem | ⟨path, -, hload, -⟩
    · cases hmem
    · exact eq_of_loaderLoad_offering hload
  have hmpich : identifyBackend .linux o.library = .mpich := by
    rw [hlibrary]
    decide +kernel
  obtain ⟨r, hcomplete, hfields⟩ := hreads copy 1 0 completeTwo ArrayCall.countingMem
    ArrayCall.overlapSafe_copy (by decide) hapart (by simp only [StatusCount.value]; decide)
  have hsource := hfields 1 (by decide) (by simp only [StatusCount.value]; decide) .source
  rw [hmpich] at hsource
  refine ⟨_, o, ho, htarget, hne, r, hcomplete, ?_⟩
  have hseven : Layout.legacy.field 0x100 1 .source
      (ArrayCall.waitallTwo.left completeTwo ArrayCall.countingMem) = 7#32 :=
    load32_store32_self _ _ _
  rw [← hseven]
  exact hsource

end UniMPI
