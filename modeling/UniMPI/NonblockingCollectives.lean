import UniMPI.TypeArrayAliasing

/-!
# Reads between the start and the completion of a collective

`ialltoallw` and `ineighbor_alltoallw` return before the operation is complete,
and until then the backend may read the datatype arrays. Their adapters restore
the arrays before they return: a read during the call sees the native forms, a
later one the 4-byte slots of the restored 8-byte handles.

`CollectiveRun` is a run of the backend and the caller around one call, with the
backend's reads at arbitrary points of it. `keepsNativeView_iff` says for which
arrays every read of every run yields the native form: both repeat the sign of
their first handle. An array of one handle does, two datatypes do not.
-/

namespace UniMPI

open ByteMemory

/-! ## Runs of the backend and the caller -/

/-- The two datatype arrays of a call. -/
inductive Side
  | send
  | recv
  deriving DecidableEq

namespace TypeArrays

variable (t : TypeArrays)

/-- The number of handles on a side. -/
def length : Side → ℕ
  | .send => t.outdeg.toNat
  | .recv => t.indeg.toNat

/-- The address of int slot `i` of a side. -/
def slot : Side → ℕ → ℕ
  | .send, i => t.sendtypes + 4 * i
  | .recv, i => t.recvtypes + 4 * i

/-- The caller's `i`-th handle of a side. -/
def handle (m : Mem) : Side → ℕ → BitVec 64
  | .send => t.sendHandle m
  | .recv => t.recvHandle m

end TypeArrays

/-- A step while the collective is under way: the backend reads an int slot of one of the arrays,
or the backend or the caller does something else. -/
inductive CollectiveEvent
  | read (side : Side) (i : ℕ)
  | other (f : Mem → Mem)

/-- A slot that was read, with what the backend got. -/
structure SlotRead where
  side : Side
  i : ℕ
  value : BitVec 32

/-- Memory after some steps. -/
def execEvents : List CollectiveEvent → Mem → Mem
  | [], m => m
  | .read _ _ :: es, m => execEvents es m
  | .other f :: es, m => execEvents es (f m)

/-- The reads among some steps. -/
def readsOf (t : TypeArrays) : List CollectiveEvent → Mem → List SlotRead
  | [], _ => []
  | .read side i :: es, m => ⟨side, i, load32 m (t.slot side i)⟩ :: readsOf t es m
  | .other f :: es, m => readsOf t es (f m)

/-- The backend reads within the arrays; neither it nor the caller writes them. -/
def Admissible (t : TypeArrays) : CollectiveEvent → Prop
  | .read side i => i < t.length side
  | .other f => ∀ m x, t.Covers x → f m x = m x

/-- What happens during the start call of a backend, on the arguments it is passed, and from its
return to the completion of the request. -/
structure CollectiveRun where
  duringCall : TypeArrayCall → List CollectiveEvent
  ret : TypeArrayCall → Int
  untilCompletion : TypeArrayCall → List CollectiveEvent

/-- The native start call of the run. -/
def CollectiveRun.native (r : CollectiveRun) (call : TypeArrayCall) (m : Mem) : Int × Mem :=
  (r.ret call, execEvents (r.duringCall call) m)

/-- A start call of a nonblocking collective. -/
inductive NonblockingCall
  | ialltoallw (a : TypeArrayArgs) (request : ℕ)
  | ineighborAlltoallw (a : TypeArrayArgs) (request : ℕ)

def NonblockingCall.start : NonblockingCall → TypeArrayCall
  | ialltoallw a request => .ialltoallw a request
  | ineighborAlltoallw a request => .ineighborAlltoallw a request

/-- The backend's reads in a run: those of the call from the compressed arrays it is handed, the
others from what the adapter returned. -/
def CollectiveRun.reads (r : CollectiveRun) (q : CommQueries) (call : NonblockingCall)
    (t : TypeArrays) (m : Mem) : List SlotRead :=
  readsOf t (r.duringCall call.start) (compressTypes t m) ++
    readsOf t (r.untilCompletion call.start) (call.start.run q r.native m).2

/-- Every read of every run yields the native form of the caller's handle. The reads are those of
arrays as long as the adapter's own query of the communicator says. -/
def KeepsNativeView (q : CommQueries) (call : NonblockingCall) (m : Mem) : Prop :=
  ∀ t, call.start.arrays q = some t → ∀ r : CollectiveRun,
    (∀ e ∈ r.duringCall call.start, Admissible t e) →
    (∀ e ∈ r.untilCompletion call.start, Admissible t e) →
      ∀ x ∈ r.reads q call t m, x.value = nativeForm (t.handle m x.side x.i)

/-! ## What reads see -/

namespace TypeArrays

variable (t : TypeArrays)

theorem HoldsNativeForms.slot_eq {t : TypeArrays} {m handed : Mem}
    (h : t.HoldsNativeForms m handed) {side : Side} {i : ℕ} (hi : i < t.length side) :
    load32 handed (t.slot side i) = nativeForm (t.handle m side i) := by
  cases side with
  | send => exact h.send i hi
  | recv => exact h.recv i hi

theorem holdsNativeForms_of_slot_eq {m handed : Mem}
    (h : ∀ side i, i < t.length side →
      load32 handed (t.slot side i) = nativeForm (t.handle m side i)) :
    t.HoldsNativeForms m handed :=
  ⟨fun i hi => h .send i hi, fun j hj => h .recv j hj⟩

end TypeArrays

/-- Admissible steps leave the arrays alone. -/
theorem execEvents_apply {t : TypeArrays} {x : ℕ} (hx : t.Covers x) :
    ∀ (es : List CollectiveEvent) (m : Mem), (∀ e ∈ es, Admissible t e) → execEvents es m x = m x
  | [], _, _ => rfl
  | .read _ _ :: es, m, h => execEvents_apply hx es m fun e he => h e (List.mem_cons_of_mem _ he)
  | .other f :: es, m, h => by
    have htail := execEvents_apply hx es (f m) fun e he => h e (List.mem_cons_of_mem _ he)
    exact htail.trans (h (.other f) List.mem_cons_self m x hx)

/-- Admissible steps read native forms from a memory that holds them. -/
theorem readsOf_native {t : TypeArrays} {m : Mem} :
    ∀ (es : List CollectiveEvent) (handed : Mem), t.HoldsNativeForms m handed →
      (∀ e ∈ es, Admissible t e) →
        ∀ x ∈ readsOf t es handed, x.value = nativeForm (t.handle m x.side x.i)
  | [], _, _, _, x, hx => by cases hx
  | .read side i :: es, handed, hforms, h, x, hx => by
    rcases List.mem_cons.1 hx with rfl | htail
    · exact hforms.slot_eq (h (.read side i) List.mem_cons_self)
    · exact readsOf_native es handed hforms (fun e he => h e (List.mem_cons_of_mem _ he)) x htail
  | .other f :: es, handed, hforms, h, x, hx =>
    readsOf_native es (f handed) (hforms.of_agree (h (.other f) List.mem_cons_self handed))
      (fun e he => h e (List.mem_cons_of_mem _ he)) x hx

/-! ## Late reads -/

namespace TypeArrays

variable (t : TypeArrays)

/-- Element `j` of the receive array begins with the same word as element `i` of the send array
when they are the same word. -/
theorem handles_meet (m : Mem) {i j : ℕ} (h : t.sendWord + 2 * i = t.recvWord + 2 * j) :
    nativeForm (t.sendHandle m i) = nativeForm (t.recvHandle m j) := by
  rw [t.nativeForm_sendHandle, t.nativeForm_recvHandle, h]

/-- What the restored send array leaves in slot `l` of the receive array is a handle of the
receive array up to its sign: that of the slot, or one of half its index. -/
theorem widened_recv_cases {m left : Mem} (hleft : t.HoldsNativeForms m left) {l : ℕ}
    (hl : l < t.indeg.toNat) :
    let v := widened (wordsAt 0 left) t.sendWord t.outdeg.toNat (t.recvWord + l)
    v = nativeForm (t.recvHandle m l) ∨
      (∃ p, l = 2 * p ∧ v = nativeForm (t.recvHandle m p)) ∨
        ∃ p, l = 2 * p + 1 ∧ v = signWord (nativeForm (t.recvHandle m p)) := by
  intro v
  have hv : v = widened (wordsAt 0 left) t.sendWord t.outdeg.toNat (t.recvWord + l) := rfl
  obtain ⟨hseven, hreven⟩ := t.words_even
  by_cases hin : t.sendWord ≤ t.recvWord + l ∧
      t.recvWord + l < t.sendWord + 2 * t.outdeg.toNat
  · obtain ⟨d, hd⟩ := Nat.exists_eq_add_of_le hin.1
    rcases Nat.even_or_odd' d with ⟨i, rfl | rfl⟩
    · have hi : i < t.outdeg.toNat := by omega
      have hmeet := t.handles_meet m (i := i) (j := l / 2) (by omega)
      refine Or.inr (Or.inl ⟨l / 2, by omega, ?_⟩)
      rw [hv, hd, widened_even _ hi, ← t.load32_send, hleft.send i hi, hmeet]
    · have hi : i < t.outdeg.toNat := by omega
      have hmeet := t.handles_meet m (i := i) (j := l / 2) (by omega)
      refine Or.inr (Or.inr ⟨l / 2, by omega, ?_⟩)
      rw [hv, hd, ← Nat.add_assoc, widened_odd _ hi, ← t.load32_send, hleft.send i hi, hmeet]
  · refine Or.inl ?_
    rw [← hleft.recv l hl, t.load32_recv]
    exact widened_of_notMem _ (by omega)

/-- Late reads of the receive array are native only if its handles repeat the first one's sign. -/
theorem recv_repeatsSign {m left : Mem} (hleft : t.HoldsNativeForms m left)
    (hlate : t.HoldsNativeForms m (restoreTypes t left)) :
    RepeatsSign (t.recvHandle m) t.indeg.toNat := by
  refine repeatsSign_of_tied fun j h1 hj => ?_
  have hread := hlate.recv j hj
  rw [t.load32_recv, t.wordsAt_restoreTypes] at hread
  rcases Nat.even_or_odd' j with ⟨l, rfl | rfl⟩
  · have hl : l < t.indeg.toNat := by omega
    rw [widened_even _ hl] at hread
    rcases t.widened_recv_cases hleft hl with h | ⟨p, rfl, h⟩ | ⟨p, rfl, h⟩
    · exact ⟨l, by omega, Or.inr ⟨by omega, hread.symm.trans h⟩⟩
    · exact ⟨p, by omega, Or.inr ⟨by omega, hread.symm.trans h⟩⟩
    · exact ⟨p, by omega, Or.inl (hread.symm.trans h)⟩
  · have hl : l < t.indeg.toNat := by omega
    rw [← Nat.add_assoc, widened_odd _ hl] at hread
    rcases t.widened_recv_cases hleft hl with h | ⟨p, rfl, h⟩ | ⟨p, rfl, h⟩
    · rw [h] at hread
      exact ⟨l, by omega, Or.inl hread.symm⟩
    · rw [h] at hread
      exact ⟨p, by omega, Or.inl hread.symm⟩
    · rw [h, signWord_signWord] at hread
      exact ⟨p, by omega, Or.inl hread.symm⟩

/-- With such a receive array, what is left in its slots is the first handle or its sign. -/
theorem widened_recv_of_repeatsSign {m left : Mem} (hleft : t.HoldsNativeForms m left)
    (hrepeats : RepeatsSign (t.recvHandle m) t.indeg.toNat) {l : ℕ} (hl : l < t.indeg.toNat) :
    widened (wordsAt 0 left) t.sendWord t.outdeg.toNat (t.recvWord + l) =
      if l = 0 then nativeForm (t.recvHandle m 0)
      else signWord (nativeForm (t.recvHandle m 0)) := by
  rcases t.widened_recv_cases hleft hl with h | ⟨p, rfl, h⟩ | ⟨p, rfl, h⟩
  · split_ifs with h0
    · rw [h, h0]
    · rw [h, hrepeats l (by omega) hl]
  · split_ifs with h0
    · rw [h, show p = 0 by omega]
    · rw [h, hrepeats p (by omega) (by omega)]
  · rw [if_neg (by omega), h, hrepeats.signWord_eq (by omega)]

/-- Where a later element of the receive array is an element of the send array, the sign of the
receive array is that of an element of the send array. -/
theorem signWord_recv_eq {m : Mem} (hrepeats : RepeatsSign (t.recvHandle m) t.indeg.toNat)
    {i l : ℕ} (hl : 0 < l) (hlt : l < t.indeg.toNat)
    (hmeet : t.sendWord + 2 * i = t.recvWord + 2 * l) :
    ∃ d ≤ i, signWord (nativeForm (t.recvHandle m 0)) =
      signWord (nativeForm (t.sendHandle m d)) := by
  obtain ⟨hseven, hreven⟩ := t.words_even
  rcases le_or_gt t.recvWord t.sendWord with hle | hlt'
  · have h0 := t.handles_meet m (i := 0) (j := (t.sendWord - t.recvWord) / 2) (by omega)
    refine ⟨0, by omega, ?_⟩
    rw [h0]
    exact (hrepeats.signWord_eq (by omega)).symm
  · have hd := t.handles_meet m (i := (t.recvWord - t.sendWord) / 2) (j := 0) (by omega)
    exact ⟨(t.recvWord - t.sendWord) / 2, by omega, by rw [hd]⟩

/-- Late reads of the send array are native only if its handles repeat the first one's sign. -/
theorem send_repeatsSign {m left : Mem} (hleft : t.HoldsNativeForms m left)
    (hlate : t.HoldsNativeForms m (restoreTypes t left)) :
    RepeatsSign (t.sendHandle m) t.outdeg.toNat := by
  have hrepeats := t.recv_repeatsSign hleft hlate
  obtain ⟨hseven, hreven⟩ := t.words_even
  refine repeatsSign_of_tied fun i h1 hi => ?_
  have hread := hlate.send i hi
  rw [t.load32_send, t.wordsAt_restoreTypes] at hread
  by_cases hin : t.recvWord ≤ t.sendWord + i ∧ t.sendWord + i < t.recvWord + 2 * t.indeg.toNat
  · -- the slot lies in the receive array, which is restored last
    obtain ⟨d, hd⟩ := Nat.exists_eq_add_of_le hin.1
    rcases Nat.even_or_odd' d with ⟨l, rfl | rfl⟩
    · rw [hd, widened_even _ (by omega), t.widened_recv_of_repeatsSign hleft hrepeats (by omega)]
        at hread
      rcases Nat.eq_zero_or_pos l with rfl | hl
      · have hmeet := t.handles_meet m (i := i / 2) (j := 0) (by omega)
        exact ⟨i / 2, by omega, Or.inr ⟨by omega, hread.symm.trans hmeet.symm⟩⟩
      · rw [if_neg (by omega)] at hread
        obtain ⟨d, hdi, h⟩ := t.signWord_recv_eq hrepeats (i := i / 2) hl (by omega) (by omega)
        exact ⟨d, by omega, Or.inl (hread.symm.trans h)⟩
    · rw [hd, ← Nat.add_assoc, widened_odd _ (by omega),
        t.widened_recv_of_repeatsSign hleft hrepeats (by omega)] at hread
      rcases Nat.eq_zero_or_pos l with rfl | hl
      · have hmeet := t.handles_meet m (i := i / 2) (j := 0) (by omega)
        rw [if_pos rfl, ← hmeet] at hread
        exact ⟨i / 2, by omega, Or.inl hread.symm⟩
      · rw [if_neg (by omega), signWord_signWord] at hread
        obtain ⟨d, hdi, h⟩ := t.signWord_recv_eq hrepeats (i := i / 2) hl (by omega) (by omega)
        exact ⟨d, by omega, Or.inl (hread.symm.trans h)⟩
  · rw [widened_of_notMem _ (by omega)] at hread
    rcases Nat.even_or_odd' i with ⟨p, rfl | rfl⟩
    · rw [widened_even _ (by omega), ← t.load32_send, hleft.send p (by omega)] at hread
      exact ⟨p, by omega, Or.inr ⟨by omega, hread.symm⟩⟩
    · rw [← Nat.add_assoc, widened_odd _ (by omega), ← t.load32_send,
        hleft.send p (by omega)] at hread
      exact ⟨p, by omega, Or.inl hread.symm⟩

/-- Arrays that repeat their signs do not conflict. -/
theorem noConflict_of_repeatsSign {m : Mem} (hsend : RepeatsSign (t.sendHandle m) t.outdeg.toNat)
    (hrecv : RepeatsSign (t.recvHandle m) t.indeg.toNat) : t.NoConflict m := by
  have hs := t.sendtypes_eq
  have hr := t.recvtypes_eq
  obtain ⟨hseven, hreven⟩ := t.words_even
  refine ⟨fun i hi j hj heq => ?_, fun i hi j hj heq => ?_, fun i hi j hj heq => ?_,
    fun i hi j hj heq => ?_⟩
  · rw [← t.handles_meet m (i := i / 2) (by omega)]
    exact hsend.eq_of_pos (by omega) hi (by omega)
  · rcases le_or_gt t.sendWord t.recvWord with hle | hlt
    · rw [← t.handles_meet m (i := (t.recvWord - t.sendWord) / 2 + j) (by omega)]
      exact hsend.eq_of_pos (by omega) hi (by omega)
    · rw [t.handles_meet m (j := (t.sendWord - t.recvWord) / 2 + i) (by omega)]
      exact hrecv.eq_of_pos hj (by omega) (by omega)
  · rw [t.handles_meet m (j := j / 2) (by omega)]
    exact hrecv.eq_of_pos hj (by omega) (by omega)
  · rw [t.handles_meet m (j := j / 2) (by omega), hrecv.signWord_eq (by omega)]
    exact hrecv j (by omega) hj

/-- After the arrays are restored, slot `i` holds half `i` of the restored handles. -/
theorem restored_slots {m left : Mem} (hback : t.HoldsSignExtensions m (restoreTypes t left))
    (hsend : RepeatsSign (t.sendHandle m) t.outdeg.toNat)
    (hrecv : RepeatsSign (t.recvHandle m) t.indeg.toNat) :
    t.HoldsNativeForms m (restoreTypes t left) where
  send i hi := by
    rcases Nat.even_or_odd' i with ⟨p, rfl | rfl⟩
    · have hp := ((t.sendHandle_eq_iff _ p _).1 (hback.send p (by omega))).1
      rw [t.load32_send, hp]
      rcases Nat.eq_zero_or_pos p with rfl | hpos
      · rfl
      · rw [hsend p hpos (by omega), hsend (2 * p) (by omega) hi]
    · have hp := ((t.sendHandle_eq_iff _ p _).1 (hback.send p (by omega))).2
      rw [t.load32_send, ← Nat.add_assoc, hp, hsend.signWord_eq (by omega),
        hsend (2 * p + 1) (by omega) hi]
  recv j hj := by
    rcases Nat.even_or_odd' j with ⟨p, rfl | rfl⟩
    · have hp := ((t.recvHandle_eq_iff _ p _).1 (hback.recv p (by omega))).1
      rw [t.load32_recv, hp]
      rcases Nat.eq_zero_or_pos p with rfl | hpos
      · rfl
      · rw [hrecv p hpos (by omega), hrecv (2 * p) (by omega) hj]
    · have hp := ((t.recvHandle_eq_iff _ p _).1 (hback.recv p (by omega))).2
      rw [t.load32_recv, ← Nat.add_assoc, hp, hrecv.signWord_eq (by omega),
        hrecv (2 * p + 1) (by omega) hj]

end TypeArrays

/-! ## When every read is native -/

/-- A run that reads one slot after the call has returned. -/
def readLate (side : Side) (i : ℕ) : CollectiveRun where
  duringCall _ := []
  ret _ := 0
  untilCompletion _ := [.read side i]

/-- A run that reads one slot during the call. -/
def readEarly (side : Side) (i : ℕ) : CollectiveRun where
  duringCall _ := [.read side i]
  ret _ := 0
  untilCompletion _ := []

theorem KeepsNativeView.during {q : CommQueries} {call : NonblockingCall} {m : Mem}
    (h : KeepsNativeView q call m) {t : TypeArrays} (ht : call.start.arrays q = some t) :
    t.HoldsNativeForms m (compressTypes t m) := by
  refine t.holdsNativeForms_of_slot_eq fun side i hi => ?_
  exact h t ht (readEarly side i) (by simp [readEarly, Admissible, hi]) (by simp [readEarly])
    ⟨side, i, load32 (compressTypes t m) (t.slot side i)⟩
    (by simp [CollectiveRun.reads, readEarly, readsOf])

theorem KeepsNativeView.late {q : CommQueries} {call : NonblockingCall} {m : Mem}
    (h : KeepsNativeView q call m) {t : TypeArrays} (ht : call.start.arrays q = some t) :
    t.HoldsNativeForms m (restoreTypes t (compressTypes t m)) := by
  refine t.holdsNativeForms_of_slot_eq fun side i hi => ?_
  refine h t ht (readLate side i) (by simp [readLate]) (by simp [readLate, Admissible, hi])
    ⟨side, i, load32 (restoreTypes t (compressTypes t m)) (t.slot side i)⟩ ?_
  simp only [CollectiveRun.reads, TypeArrayCall.run_of_arrays ht]
  simp [readLate, readsOf, withTypeArrays, CollectiveRun.native, execEvents]

theorem repeatsSign_of_keepsNativeView {q : CommQueries} {call : NonblockingCall} {m : Mem}
    (h : KeepsNativeView q call m) {t : TypeArrays} (ht : call.start.arrays q = some t) :
    RepeatsSign (t.sendHandle m) t.outdeg.toNat ∧ RepeatsSign (t.recvHandle m) t.indeg.toNat :=
  ⟨t.send_repeatsSign (h.during ht) (h.late ht), t.recv_repeatsSign (h.during ht) (h.late ht)⟩

/-- Every read in every run is native exactly when both arrays repeat the sign of their first
handle. -/
theorem keepsNativeView_iff (q : CommQueries) (call : NonblockingCall) (m : Mem) :
    KeepsNativeView q call m ↔ ∀ t, call.start.arrays q = some t →
      RepeatsSign (t.sendHandle m) t.outdeg.toNat ∧
        RepeatsSign (t.recvHandle m) t.indeg.toNat := by
  constructor
  · intro h t ht
    exact repeatsSign_of_keepsNativeView h ht
  · intro h t ht r hduring huntil x hx
    obtain ⟨hsend, hrecv⟩ := h t ht
    have hno := t.noConflict_of_repeatsSign hsend hrecv
    have hforms := t.holdsNativeForms_of_noConflict hno
    rcases List.mem_append.1 hx with hx | hx
    · exact readsOf_native (r.duringCall call.start) _ hforms hduring x hx
    · have hleft : t.HoldsNativeForms m
          (execEvents (r.duringCall call.start) (compressTypes t m)) :=
        hforms.of_agree fun x hc => execEvents_apply hc (r.duringCall call.start) _ hduring
      have hback := t.restored_slots (t.holdsSignExtensions_of_noConflict hno hleft) hsend hrecv
      rw [TypeArrayCall.run_of_arrays ht] at hx
      exact readsOf_native (r.untilCompletion call.start) _ hback huntil x hx

/-! ## Two datatypes on each side -/

/-- `MPI_INT`, `MPI_DOUBLE` and `MPI_CHAR` in separate arrays at `0` and `0x40`. -/
def separateTypes : Mem :=
  store64 (store64 (store64 threeTypes 0x40 0x4c000405#64) 0x48 0x4c00080b#64) 0x50 0x4c000101#64

/-- The arrays at `0` and `0x40`. -/
def separateArgs : TypeArrayArgs :=
  { sharedArgs with recvtypes := 0x40, recvtypes_aligned := by decide }

theorem not_keepsNativeView_separate :
    ¬KeepsNativeView threeProcesses (.ialltoallw separateArgs 0x500) separateTypes := by
  intro h
  have hsend := (repeatsSign_of_keepsNativeView h rfl).1 1 (by decide) (by decide)
  exact absurd hsend (by decide)

end UniMPI
