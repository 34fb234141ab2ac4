import UniMPI.Lifecycle

/-!
# Members and exported symbols

A caller may use a member of `unimpi` after checking that it is not null. With an
integer-handle backend the check is enough for members bound directly and for the
adapters over type arrays, which are bound only if the library exports their
symbol. The adapters over request arrays are bound whatever the library exports,
and forward to the null pointer that the fill recorded.

`vtableInit_degrades_iff` : after a successful fill of a cleared table, all
forwarding members are null exactly where the library lacks their symbol if and
only if it exports the seven functions behind the request-array adapters.
-/

namespace UniMPI

/-- A member that forwards to a function of the library and has no local replacement. -/
def Slot.Forwards (s : Slot) : Prop :=
  s.kind ≠ .statusReader ∧ s.kind ≠ .aint

/-- A member is null exactly if the library lacks its symbol, and a call through it reaches no null
pointer if it is not. -/
structure DegradesToNull (L : Library) (st : State) (s : Slot) : Prop where
  bound : st.tables.unimpi s ≠ .null ↔ L.exports s.symbol = true
  callable : st.tables.unimpi s ≠ .null → callSlot st s ≠ .error (.null s)

/-! ## Calls -/

theorem callSlot_eq_null_iff (st : State) (s : Slot) :
    callSlot st s = .error (.null s) ↔ st.tables.target s = .null := by
  unfold callSlot
  split
  · simp [*]
  · split_ifs <;> simp [*]
  · rename_i hnull _
    simpa using hnull

theorem Library.bind_ne_null_iff (L : Library) (symbol : String) :
    L.bind symbol ≠ .null ↔ L.exports symbol = true := by
  rw [ne_eq, L.bind_eq_null_iff, Bool.not_eq_false]

/-- A member bound directly degrades to null. -/
theorem degradesToNull_of_bind {L : Library} {st : State} {s : Slot}
    (h : st.tables.unimpi s = L.bind s.symbol) : DegradesToNull L st s := by
  refine ⟨by rw [h, L.bind_ne_null_iff], fun hne hcall => ?_⟩
  rw [callSlot_eq_null_iff, Tables.target_of_bind h, ← h] at hcall
  exact hne hcall

/-- An adapter that is bound over the function the library exports, or not, degrades to null exactly
if the function is there. -/
theorem degradesToNull_wrapper_iff {L : Library} {st : State} {s : Slot} {b : BackendType}
    (h : st.tables.unimpi s = .wrapper b) (hn : st.tables.natives b s = L.bind s.symbol) :
    DegradesToNull L st s ↔ L.exports s.symbol = true := by
  have hbound : st.tables.unimpi s ≠ .null := by
    rw [h]
    exact Entry.noConfusion
  constructor
  · intro hd
    exact hd.bound.1 hbound
  · intro he
    refine ⟨⟨fun _ => he, fun _ => hbound⟩, fun _ hcall => ?_⟩
    rw [callSlot_eq_null_iff, Tables.target_of_wrapper h, hn] at hcall
    exact (L.bind_ne_null_iff _).2 he hcall

/-! ## The fills -/

/-- What the fill of an integer-handle backend binds. -/
theorem fill_legacy {b : BackendType} {L : Library} {t t' : Tables} (hb : b ≠ .openmpi)
    (hknown : b ≠ .unknown) (h : fill b L t = some t') :
    ∃ value, t' = legacyFill b value L t := by
  cases b with
  | unknown => exact absurd rfl hknown
  | openmpi => exact absurd rfl hb
  | mpich => exact ⟨mpichValue, (Option.some.inj h).symm⟩
  | intelmpi => exact ⟨intelmpiValue, (Option.some.inj h).symm⟩
  | msmpi => exact ⟨msmpiValue, (Option.some.inj h).symm⟩

/-- One member after a fill of a cleared table. -/
theorem degradesToNull_legacyFill_iff {b : BackendType} {value : Library → Global → Option Int}
    {L : Library} {t : Tables} {st : State} {s : Slot} (hs : s.Forwards)
    (hnull : t.unimpi s = .null) (ht : st.tables = legacyFill b value L t) :
    DegradesToNull L st s ↔ (s.kind = .requestArray → L.exports s.symbol = true) := by
  have hentry : st.tables.unimpi s = legacyEntry b L .null s := by
    rw [ht, ← hnull]
    rfl
  have hnative : st.tables.natives b s = legacyNative L (t.natives b s) s := by
    rw [ht]
    exact if_pos rfl
  cases hk : s.kind with
  | statusReader => exact absurd hk hs.1
  | aint => exact absurd hk hs.2
  | native =>
    simp only [legacyEntry, hk] at hentry
    simp [degradesToNull_of_bind hentry]
  | requestArray =>
    simp only [legacyEntry, legacyNative, hk] at hentry hnative
    simp [degradesToNull_wrapper_iff hentry hnative]
  | typeArray =>
    simp only [legacyEntry, legacyNative, hk] at hentry hnative
    cases he : L.exports s.symbol with
    | false =>
      -- the adapter is not bound, so the member is null as the library has it
      rw [if_neg (by simp [he]), ← (L.bind_eq_null_iff _).2 he] at hentry
      simp [degradesToNull_of_bind hentry]
    | true =>
      rw [if_pos he] at hentry
      simp [degradesToNull_wrapper_iff hentry hnative, he]

/-! ## Results -/

section VtableInit

variable {p : Platform} {L : Library} {st st' : State}

/-- A successful `unimpi_vtable_init` has filled the tables for a backend it has identified. -/
theorem fill_of_vtableInit (h : vtableInit p L st = (.ok, st')) :
    identifyBackend p L ≠ .unknown ∧
      fill (identifyBackend p L) L (vtableInitStart st.tables) = some st'.tables := by
  unfold vtableInit at h
  dsimp only at h
  split_ifs at h with hcore hret
  · obtain ⟨hcode, -⟩ := Prod.mk.inj h
    cases hcode
  · exact absurd (Prod.mk.inj h).1 hret
  · split at h
    · rename_i t hfill
      obtain ⟨-, rfl⟩ := Prod.mk.inj h
      refine ⟨fun hunknown => ?_, hfill⟩
      have hsupported := backendSupported_of_check (not_not.1 hret)
      rw [hunknown, backendSupported_unknown] at hsupported
      exact Bool.false_ne_true hsupported
    · obtain ⟨hcode, -⟩ := Prod.mk.inj h
      cases hcode

/-- After a successful fill of a cleared table by an integer-handle backend, the members are null
where the library lacks their symbols, and calls through the others reach no null pointer, if and
only if the library exports every function behind a request-array adapter. -/
theorem vtableInit_degrades_iff (hinteger : identifyBackend p L ≠ .openmpi)
    (hcleared : st.tables.unimpi = fun _ => .null) (h : vtableInit p L st = (.ok, st')) :
    ((∀ s : Slot, s.Forwards → DegradesToNull L st' s) ∧
      ∀ m : MtSlot, st'.tables.unimpiMt m ≠ .null ↔ L.exports m.symbol = true) ↔
    ∀ s : Slot, s.kind = .requestArray → L.exports s.symbol = true := by
  obtain ⟨hknown, hfill⟩ := fill_of_vtableInit h
  obtain ⟨value, ht⟩ := fill_legacy hinteger hknown hfill
  have hnull : ∀ s, (vtableInitStart st.tables).unimpi s = .null := congrFun hcleared
  have hmember : ∀ s : Slot, s.Forwards →
      (DegradesToNull L st' s ↔ (s.kind = .requestArray → L.exports s.symbol = true)) :=
    fun s hs => degradesToNull_legacyFill_iff hs (hnull s) ht
  have hmt : ∀ m : MtSlot, st'.tables.unimpiMt m ≠ .null ↔ L.exports m.symbol = true := by
    intro m
    rw [congrFun (fill_unimpiMt hfill) m, L.bind_ne_null_iff]
  constructor
  · rintro ⟨hall, -⟩ s hk
    have hs : s.Forwards := by simp [Slot.Forwards, hk]
    exact (hmember s hs).1 (hall s hs) hk
  · intro hrequest
    exact ⟨fun s hs => (hmember s hs).2 (hrequest s), hmt⟩

end VtableInit

/-- The core functions, the functions over request arrays and a symbol that tells MPICH. -/
def mpichRequestLibrary : Library :=
  .ofSymbols 1 ["MPI_Init", "MPI_Finalize", "MPI_Comm_size", "MPI_Comm_rank", "MPIR_Dup_fn",
    "MPI_Waitall", "MPI_Testany", "MPI_Testsome", "MPI_Testall", "MPI_Waitany", "MPI_Waitsome",
    "MPI_Startall"]

theorem exists_vtableInit {p : Platform} {L : Library} {st : State}
    (h : (vtableInit p L st).1 = .ok) : ∃ st', vtableInit p L st = (.ok, st') :=
  ⟨(vtableInit p L st).2, Prod.ext h rfl⟩

/-- A library without most of the interface still degrades as documented if it has these. -/
theorem vtableInit_degrades_mpichRequest : ∃ st',
    vtableInit .linux mpichRequestLibrary .initial = (.ok, st') ∧
    ∀ s : Slot, s.Forwards → DegradesToNull mpichRequestLibrary st' s := by
  obtain ⟨st', h⟩ := @exists_vtableInit .linux mpichRequestLibrary .initial (by decide +kernel)
  have hexports : ∀ s : Slot, s.kind = .requestArray →
      mpichRequestLibrary.exports s.symbol = true := by
    intro s hs
    unfold Slot.kind at hs
    split at hs <;> first | decide | cases hs
  have hother : identifyBackend .linux mpichRequestLibrary ≠ .openmpi := by decide +kernel
  exact ⟨st', h, ((vtableInit_degrades_iff hother rfl h).2 hexports).1⟩

/-- Without `MPI_Waitall`, `unimpi.waitall` is not null and calls the null pointer. -/
theorem not_vtableInit_degrades_mpich : ¬∀ p L st st',
    identifyBackend p L ≠ .openmpi → st.tables.unimpi = (fun _ => .null) →
    vtableInit p L st = (.ok, st') → ∀ s : Slot, s.Forwards → DegradesToNull L st' s := by
  intro hall
  obtain ⟨st', h⟩ := @exists_vtableInit .linux mpichLibrary .initial (by decide +kernel)
  have hother : identifyBackend .linux mpichLibrary ≠ .openmpi := by decide +kernel
  have hmember := hall .linux mpichLibrary .initial st' hother rfl h .waitall ⟨by decide, by decide⟩
  obtain ⟨hknown, hfill⟩ := fill_of_vtableInit h
  obtain ⟨value, ht⟩ := fill_legacy hother hknown hfill
  have hexports := (degradesToNull_legacyFill_iff ⟨by decide, by decide⟩ rfl ht).1 hmember rfl
  exact absurd hexports (by decide)

end UniMPI
