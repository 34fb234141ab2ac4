import UniMPI.Programs

/-!
# Portability

A program is written once and run with one backend or another. Two runs of it differ
in the platform, in what the environment selects and in the libraries that are found,
but where one finds a library the other finds one with the same functions of MPI, and
where one is refused so is the other (`Action.Ports`).

`programs_portable` : then the two runs get the same codes and flags, stop at the same
place, and reach functions of the same kind through every member. What may differ is
what a program asks for by name: the type, the name and the path of the backend.
-/

namespace UniMPI

open Runs

/-! ## Counterparts -/

/-- The libraries export the same functions of MPI. -/
structure SameSurface (L L' : Library) : Prop where
  members : ∀ s : Slot, L'.exports s.symbol = L.exports s.symbol
  tools : ∀ s : MtSlot, L'.exports s.symbol = L.exports s.symbol

/-- Two attempts to get a library end alike. -/
inductive Alike : Except ReturnCode Library → Except ReturnCode Library → Prop
  | refused (ret : ReturnCode) : Alike (.error ret) (.error ret)
  | found {L L' : Library} (h : SameSurface L L') : Alike (.ok L) (.ok L')

/-- The second call does with its backend what the first does with its own. -/
structure Call.Ports (p p' : Platform) (c c' : Call) : Prop where
  op : c'.op = c.op ∨
    ∃ name name', c.op = .initWith (some name) ∧ c'.op = .initWith (some name')
  asked : ∀ path path', c.op.path p c.env = some path → c'.op.path p' c'.env = some path' →
    Alike (acquire p c.env path) (acquire p' c'.env path')
  selected : c.op = .mpitInitThread →
    Alike (acquire p c.env (detectBackend p c.env)) (acquire p' c'.env (detectBackend p' c'.env))
  mpiInit : c'.env.mpiInit = c.env.mpiInit
  mpiFinalize : c'.env.mpiFinalize = c.env.mpiFinalize
  mpitInit : c'.env.mpitInit = c.env.mpitInit
  mpitFinalize : c'.env.mpitFinalize = c.env.mpitFinalize

/-- The second action is the first with another backend. There are no diagnoses, which print what
the backends differ in. -/
inductive Action.Ports (p p' : Platform) : Action → Action → Prop
  | call {c c' : Call} (h : c.Ports p p' c') : Ports p p' (.call c) (.call c')
  | mpi (s : Slot) : Ports p p' (.mpi s) (.mpi s)
  | tools (s : MtSlot) : Ports p p' (.tools s) (.tools s)
  | ask (q : Query) : Ports p p' (.ask q) (.ask q)

/-- Functions of the same kind. -/
inductive Entry.Alike : Entry → Entry → Prop
  | native (lib addr lib' addr' : ℕ) : Alike (.native lib addr) (.native lib' addr')
  | statusReader (b b' : BackendType) : Alike (.statusReader b) (.statusReader b')
  | localAint : Alike .localAint .localAint

/-- The program gets the same, but for what names the backend. -/
inductive Observation.Alike : Observation → Observation → Prop
  | code (ret : ReturnCode) : Alike (.code ret) (.code ret)
  | reached {e e' : Entry} (h : e.Alike e') : Alike (.reached e) (.reached e')
  | flag (answer : ReturnCode × Option Int) : Alike (.flag answer) (.flag answer)
  | int (value : Int) : Alike (.int value) (.int value)
  | type (b b' : BackendType) : Alike (.type b) (.type b')
  | string {text text' : Option CString} (h : text'.isSome = text.isSome) :
    Alike (.string text) (.string text')

/-- A library that can be named, and its counterpart. -/
structure Holding.Ports (p p' : Platform) (held held' : Holding) : Prop where
  surface : SameSurface held.library held'.library
  named : (backendName (identifyBackend p held.library)).isSome
  named' : (backendName (identifyBackend p' held'.library)).isSome

namespace Sharing

/-- The same hold a library and its counterpart. -/
inductive Ports (p p' : Platform) : Sharing → Sharing → Prop
  | closed (rest : Rest) : Ports p p' (.closed rest) (.closed rest)
  | tools {held held' : Holding} (rest : Rest) (h : held.Ports p p' held') (bound : Bool)
    (more : ℕ) : Ports p p' (.tools rest held bound more) (.tools rest held' bound more)
  | active {held held' : Holding} (h : held.Ports p p' held') (others : ℕ) :
    Ports p p' (.active held others) (.active held' others)

/-- The two answer alike and end with counterparts, or neither answers. -/
abbrev Concur (p p' : Platform) :
    Option (ReturnCode × Sharing) → Option (ReturnCode × Sharing) → Prop :=
  Option.Rel fun x y => x.1 = y.1 ∧ Ports p p' x.2 y.2

end Sharing

/-! ## One call -/

section

variable {p p' : Platform} {env env' : Env} {path path' : CString} {L : Library}
  {held held' : Holding} {a a' : Sharing}

theorem isSome_backendName_of_supported {b : BackendType} (h : backendSupported p b = true) :
    (backendName b).isSome := by
  cases b with
  | unknown =>
    rw [backendSupported_unknown] at h
    cases h
  | openmpi | mpich | intelmpi | msmpi => rfl

/-- A library that is acquired can be named. -/
theorem isSome_backendName_of_acquire (h : acquire p env path = .ok L) :
    (backendName (identifyBackend p L)).isSome := by
  unfold acquire at h
  split at h
  · cases h
  · split_ifs at h with hcore hsupported hfill
    cases h
    exact isSome_backendName_of_supported (by simpa using hsupported)

theorem Sharing.Ports.leave (h : held.Ports p p' held') (rest : Rest) (others : ℕ) :
    Ports p p' (leave rest held others) (leave rest held' others) := by
  cases others with
  | zero => exact .closed rest
  | succ more => exact .tools rest h false more

theorem Sharing.Ports.start (h : held.Ports p p' held') (hinit : env'.mpiInit = env.mpiInit)
    (others : ℕ) : (start env held others).1 = (start env' held' others).1 ∧
      Ports p p' (start env held others).2 (start env' held' others).2 := by
  unfold Sharing.start
  rw [hinit]
  split_ifs
  · exact ⟨rfl, .active h others⟩
  · exact ⟨rfl, .leave h .idle others⟩

theorem Sharing.Ports.enter (h : Ports p p' a a')
    (hload : Alike (acquire p env path) (acquire p' env' path'))
    (hinit : env'.mpiInit = env.mpiInit) :
    Concur p p' (a.enter p env path) (a'.enter p' env' path') := by
  cases h with
  | closed rest =>
    simp only [Sharing.enter]
    split_ifs
    · have hnamed := @isSome_backendName_of_acquire p env path
      have hnamed' := @isSome_backendName_of_acquire p' env' path'
      generalize acquire p env path = r at hload hnamed ⊢
      generalize acquire p' env' path' = r' at hload hnamed' ⊢
      cases hload with
      | refused ret => exact .some ⟨rfl, .closed rest⟩
      | found hsurface =>
        exact .some (Sharing.Ports.start ⟨hsurface, hnamed rfl, hnamed' rfl⟩ hinit 0)
    · exact .some ⟨rfl, .closed rest⟩
  | tools rest h bound more =>
    simp only [Sharing.enter]
    split_ifs
    · exact .some (Sharing.Ports.start h hinit (more + 1))
    · exact .none
    · exact .some ⟨rfl, .tools rest h bound more⟩
  | active h others => exact .some ⟨rfl, .active h others⟩

theorem Sharing.Ports.finalize (h : Ports p p' a a')
    (hfinalize : env'.mpiFinalize = env.mpiFinalize) :
    (a.finalize env).1 = (a'.finalize env').1 ∧
      Ports p p' (a.finalize env).2 (a'.finalize env').2 := by
  cases h with
  | closed rest => exact ⟨rfl, .closed rest⟩
  | tools rest h bound more => exact ⟨rfl, .tools rest h bound more⟩
  | active h others =>
    unfold Sharing.finalize
    rw [hfinalize]
    exact ⟨rfl, .leave h _ others⟩

theorem Sharing.Ports.toolsInit (h : Ports p p' a a')
    (hload : Alike (acquire p env (detectBackend p env))
      (acquire p' env' (detectBackend p' env')))
    (hcode : env'.mpitInit = env.mpitInit) :
    Concur p p' (a.toolsInit p env) (a'.toolsInit p' env') := by
  have hexports : ∀ {L L' : Library}, SameSurface L L' →
      L'.exports "MPI_T_init_thread" = L.exports "MPI_T_init_thread" :=
    fun h => h.tools .tInitThread
  cases h with
  | closed rest =>
    simp only [Sharing.toolsInit]
    have hnamed := @isSome_backendName_of_acquire p env (detectBackend p env)
    have hnamed' := @isSome_backendName_of_acquire p' env' (detectBackend p' env')
    generalize acquire p env (detectBackend p env) = r at hload hnamed ⊢
    generalize acquire p' env' (detectBackend p' env') = r' at hload hnamed' ⊢
    cases hload with
    | refused ret => exact .some ⟨rfl, .closed rest⟩
    | found hsurface =>
      simp only [hexports hsurface, hcode]
      split_ifs
      · exact .some ⟨rfl, .tools rest ⟨hsurface, hnamed rfl, hnamed' rfl⟩ true 0⟩
      · exact .none
  | tools rest h bound more =>
    simp only [Sharing.toolsInit, hexports h.surface, hcode]
    split_ifs
    · exact .some ⟨rfl, .tools rest h bound (more + 1)⟩
    · exact .none
  | active h others =>
    simp only [Sharing.toolsInit, hexports h.surface, hcode]
    split_ifs
    · exact .some ⟨rfl, .active h (others + 1)⟩
    · exact .none

theorem Sharing.Ports.toolsFinalize (h : Ports p p' a a')
    (hcode : env'.mpitFinalize = env.mpitFinalize) :
    Concur p p' (a.toolsFinalize env) (a'.toolsFinalize env') := by
  have hexports : ∀ {L L' : Library}, SameSurface L L' →
      L'.exports "MPI_T_finalize" = L.exports "MPI_T_finalize" :=
    fun h => h.tools .tFinalize
  cases h with
  | closed rest => exact .none
  | tools rest h bound more =>
    simp only [Sharing.toolsFinalize, hexports h.surface, hcode]
    split_ifs
    · cases more with
      | zero => exact .some ⟨rfl, .closed rest⟩
      | succ more => exact .some ⟨rfl, .tools rest h bound more⟩
    · exact .none
  | active h others =>
    cases others with
    | zero => exact .none
    | succ others =>
      simp only [Sharing.toolsFinalize, hexports h.surface, hcode]
      split_ifs
      · exact .some ⟨rfl, .active h others⟩
      · exact .none

/-- One call is answered alike. -/
theorem Sharing.Ports.respond (h : Ports p p' a a') {c c' : Call} (hports : c.Ports p p' c') :
    Concur p p' (a.respond p c) (a'.respond p' c') := by
  obtain ⟨op, env⟩ := c
  obtain ⟨op', env'⟩ := c'
  obtain ⟨hop, hasked, hselected, hinit, hfinalize, htoolsInit, htoolsFinalize⟩ := hports
  rcases hop with hop | ⟨name, name', hop, hop'⟩
  · obtain rfl : op = op' := hop.symm
    cases op with
    | init => exact h.enter (hasked _ _ rfl rfl) hinit
    | initThread required provided =>
      simp only [Sharing.respond]
      split_ifs with hargs
      · exact h.enter (hasked _ _ (if_pos hargs) (if_pos hargs)) hinit
      · exact .some ⟨rfl, h⟩
    | initWith name =>
      cases name with
      | none => exact .some ⟨rfl, h⟩
      | some name => exact h.enter (hasked _ _ rfl rfl) hinit
    | finalize => exact .some (h.finalize hfinalize)
    | mpitInitThread => exact h.toolsInit (hselected rfl) htoolsInit
    | mpitFinalize => exact h.toolsFinalize htoolsFinalize
  · obtain rfl : op = .initWith (some name) := hop
    obtain rfl : op' = .initWith (some name') := hop'
    exact h.enter (hasked _ _ rfl rfl) hinit

/-! ## One action -/

theorem Sharing.Ports.holding (h : Ports p p' a a') :
    Option.Rel (Holding.Ports p p') a.held a'.held := by
  cases h with
  | closed rest => exact .none
  | tools rest h bound more => exact .some h
  | active h others => exact .some h

theorem Sharing.Ports.serving (h : Ports p p' a a') :
    Option.Rel (Holding.Ports p p') a.serving a'.serving := by
  cases h with
  | closed rest => exact .none
  | tools rest h bound more =>
    cases bound with
    | true => exact .some h
    | false => exact .none
  | active h others => exact .some h

theorem Sharing.Ports.isSome_held (h : Ports p p' a a') : a'.held.isSome = a.held.isSome := by
  cases h <;> rfl

theorem Sharing.Ports.permits (h : Ports p p' a a') {c c' : Call} (hports : c.Ports p p' c')
    (hpermits : a.Permits c) : a'.Permits c' := by
  rintro name hname held' bound more rfl
  cases h with
  | @tools held _ _ _ _ _ =>
    rcases hports.op with hop | ⟨name₀, -, hop, -⟩
    · exact hpermits name (hop.symm.trans hname) held bound more rfl
    · exact hpermits name₀ hop held bound more rfl

theorem Sharing.Ports.admits (h : Ports p p' a a') {action action' : Action}
    (hports : action.Ports p p' action') (hadmits : a.Admits action) : a'.Admits action' := by
  cases hports with
  | call hcall => exact h.permits hcall hadmits
  | mpi s =>
    obtain ⟨held, hheld, htypes⟩ := hadmits
    have hmember : ∀ {held held' : Holding}, held.Ports p p' held' →
        (s.kind = .typeArray → held.library.exports s.symbol = true) →
        s.kind = .typeArray → held'.library.exports s.symbol = true :=
      fun hp htypes hkind => (hp.surface.members s).trans (htypes hkind)
    cases h with
    | closed rest => cases hheld
    | tools rest hp bound more =>
      obtain rfl := Option.some.inj hheld
      exact ⟨_, rfl, hmember hp htypes⟩
    | active hp others =>
      obtain rfl := Option.some.inj hheld
      exact ⟨_, rfl, hmember hp htypes⟩
  | tools s => exact h.isSome_held.trans hadmits
  | ask q =>
    cases q with
    | mpiInitialized | mpiFinalized | isInitialized => trivial
    | backendType | backendName | libraryPath => exact h.isSome_held.trans hadmits

/-- Counterparts bind a symbol that both have, or neither. -/
theorem alike_bind {L L' : Library} {symbol : String}
    (h : L'.exports symbol = L.exports symbol) :
    L.bind symbol = .null ∧ L'.bind symbol = .null ∨ (L.bind symbol).Alike (L'.bind symbol) := by
  unfold Library.bind
  rw [h]
  split_ifs
  · exact Or.inr (.native ..)
  · exact Or.inl ⟨rfl, rfl⟩

theorem SameSurface.provides {L L' : Library} (h : SameSurface L L') (s : Slot) :
    L.provides p s = .null ∧ L'.provides p' s = .null ∨
      (L.provides p s).Alike (L'.provides p' s) := by
  have hbind := alike_bind (h.members s)
  unfold Library.provides
  cases s.kind with
  | native | requestArray | typeArray => exact hbind
  | statusReader => exact Or.inr (.statusReader ..)
  | aint =>
    dsimp only
    rw [h.members s]
    split_ifs
    · exact hbind
    · exact Or.inr .localAint

/-- What the two get from one action. -/
abbrev Observation.Concur (p p' : Platform) :
    Option (Observation × Sharing) → Option (Observation × Sharing) → Prop :=
  Option.Rel fun x y => x.1.Alike y.1 ∧ Sharing.Ports p p' x.2 y.2

theorem Sharing.Ports.reach (h : Ports p p' a a') {e e' : Entry}
    (he : e = .null ∧ e' = .null ∨ e.Alike e') :
    Observation.Concur p p' (a.reach e) (a'.reach e') := by
  unfold Sharing.reach
  rcases he with ⟨rfl, rfl⟩ | he
  · exact .none
  · have hnull : e ≠ .null ∧ e' ≠ .null := by cases he <;> exact ⟨nofun, nofun⟩
    rw [if_neg hnull.1, if_neg hnull.2]
    exact .some ⟨.reached he, h⟩

theorem Sharing.Ports.bind_reach (h : Ports p p' a a') {o o' : Option Holding}
    (ho : Option.Rel (Holding.Ports p p') o o') {f f' : Holding → Entry}
    (hf : ∀ held held', held.Ports p p' held' →
      f held = .null ∧ f' held' = .null ∨ (f held).Alike (f' held')) :
    Observation.Concur p p' (o.bind fun held => a.reach (f held))
      (o'.bind fun held => a'.reach (f' held)) := by
  cases ho with
  | none => exact .none
  | some hp => exact h.reach (hf _ _ hp)

theorem Sharing.Ports.observe (h : Ports p p' a a') (q : Query) :
    (a.observe p q).Alike (a'.observe p' q) := by
  have hserving := h.serving
  have hstage : a'.begun = a.begun ∧ a'.ended = a.ended ∧ a'.isActive = a.isActive := by
    cases h <;> exact ⟨rfl, rfl, rfl⟩
  obtain ⟨hbegun, hended, hactive⟩ := hstage
  cases q with
  | mpiInitialized flag => simpa only [Sharing.observe, hbegun] using .flag _
  | mpiFinalized flag => simpa only [Sharing.observe, hended] using .flag _
  | isInitialized => simpa only [Sharing.observe, hactive] using .int _
  | backendType => exact .type ..
  | backendName =>
    refine .string ?_
    generalize a.serving = o at hserving ⊢
    generalize a'.serving = o' at hserving ⊢
    cases hserving with
    | none => rfl
    | some hp => exact hp.named'.trans hp.named.symm
  | libraryPath =>
    refine .string ?_
    generalize a.serving = o at hserving ⊢
    generalize a'.serving = o' at hserving ⊢
    cases hserving <;> rfl

/-- One action gets the same. -/
theorem Sharing.Ports.perform (h : Ports p p' a a') {action action' : Action}
    (hports : action.Ports p p' action') :
    Observation.Concur p p' (a.perform p action) (a'.perform p' action') := by
  cases hports with
  | @call c c' hcall =>
    have hconcur := h.respond hcall
    simp only [Sharing.perform]
    generalize a.respond p c = r at hconcur ⊢
    generalize a'.respond p' c' = r' at hconcur ⊢
    cases hconcur with
    | none => exact .none
    | @some x y hxy =>
      refine .some ⟨?_, hxy.2⟩
      dsimp only
      rw [hxy.1]
      exact .code _
  | mpi s => exact h.bind_reach h.serving fun _ _ hp => hp.surface.provides s
  | tools s => exact h.bind_reach h.holding fun _ _ hp => alike_bind (hp.surface.tools s)
  | ask q => exact .some ⟨h.observe q, h⟩

end

/-! ## Programs -/

/-- A program runs alike with every backend that has the same functions of MPI. -/
theorem programs_portable {p p' : Platform} {program program' : List Action}
    (hports : List.Forall₂ (Action.Ports p p') program program')
    (h : (Sharing.closed .idle).Behaves p program) :
    (Sharing.closed .idle).Behaves p' program' ∧
      List.Forall₂ (Option.Rel Observation.Alike) (Sys.initial.execute p program).1
        (Sys.initial.execute p' program').1 := by
  have hrun : (Sharing.closed .idle).Behaves p' program' ∧
      List.Forall₂ (Option.Rel Observation.Alike) ((Sharing.closed .idle).execute p program).1
        ((Sharing.closed .idle).execute p' program').1 := by
    refine stopping_forall₂ (R := Sharing.Ports p p') ?_ ?_ hports (.some (.closed .idle)) h
    · intro a a' action action' ha hports hadmits
      exact ha.admits hports hadmits
    · intro a a' action action' ha hports _
      exact ha.perform hports
  refine ⟨hrun.1, ?_⟩
  rw [← (programs_refine h).1, ← (programs_refine hrun.1).1]
  exact hrun.2

/-- A library of Open MPI with the functions of `mpichLibrary`. -/
def openmpiTwin : Library :=
  .ofSymbols 2 ["ompi_mpi_comm_world", "ompi_mpi_comm_self", "MPI_Init", "MPI_Finalize",
    "MPI_Comm_size", "MPI_Comm_rank", "MPI_T_init_thread", "MPI_T_finalize"]

theorem exports_ofSymbols (handle : ℕ) (symbols : List String) (symbol : String) :
    (Library.ofSymbols handle symbols).exports symbol = decide (symbol ∈ symbols) := by
  unfold Library.exports Library.ofSymbols
  dsimp only
  cases hidx : symbols.idxOf? symbol with
  | none =>
    have hnot : symbol ∉ symbols := List.idxOf?_eq_none_iff.1 hidx
    simp [hnot]
  | some i =>
    have hmem : symbol ∈ symbols := by
      by_contra hnot
      rw [List.idxOf?_eq_none_iff.2 hnot] at hidx
      cases hidx
    simp [hmem]

/-- No member is bound to a symbol by which a backend is recognised. -/
theorem symbol_not_mem_marks (s : Slot) :
    s.symbol ∉ ["ompi_mpi_comm_world", "ompi_mpi_comm_self", "MPIR_Dup_fn"] := by
  cases s <;> decide +kernel

theorem mtSymbol_not_mem_marks (s : MtSlot) :
    s.symbol ∉ ["ompi_mpi_comm_world", "ompi_mpi_comm_self", "MPIR_Dup_fn"] := by
  cases s <;> decide +kernel

theorem sameSurface_openmpiTwin : SameSurface mpichLibrary openmpiTwin := by
  have hexports : ∀ {symbol : String},
      symbol ∉ ["ompi_mpi_comm_world", "ompi_mpi_comm_self", "MPIR_Dup_fn"] →
      openmpiTwin.exports symbol = mpichLibrary.exports symbol := by
    intro symbol hmarks
    simp only [List.mem_cons, List.not_mem_nil, or_false, not_or] at hmarks
    obtain ⟨hworld, hself, hdup⟩ := hmarks
    rw [openmpiTwin, mpichLibrary, exports_ofSymbols, exports_ofSymbols]
    simp [hworld, hself, hdup]
  exact ⟨fun s => hexports (symbol_not_mem_marks s), fun s => hexports (mtSymbol_not_mem_marks s)⟩

/-- What such an environment lets a process get is the library it offers. -/
theorem acquire_offering {p : Platform} {L : Library} {i : Int} {path : CString}
    (h : (acquire p (.offering (some L) i) path).isOk) :
    acquire p (.offering (some L) i) path = .ok L := by
  have hopen : ∀ L', loaderLoad (.offering (some L) i) path = .ok L' → L' = L := by
    intro L' hload
    unfold loaderLoad at hload
    split_ifs at hload
    exact (Except.ok.inj hload).symm
  unfold acquire at h ⊢
  cases hload : loaderLoad (.offering (some L) i) path with
  | error ret =>
    rw [hload] at h
    cases h
  | ok L' =>
    obtain rfl := hopen L' hload
    rw [hload] at h
    dsimp only at h ⊢
    split_ifs at h ⊢ with hcore hsupported hfill
    · cases h
    · cases h
    · cases h
    · rfl

/-- `session` with Open MPI. -/
def portedSession : List Action :=
  [.call ⟨.init, .offering (some openmpiTwin) 0⟩, .ask .backendName, .mpi .commRank,
    .mpi .statusGetTag, .tools .tFinalize, .call ⟨.finalize, .offering none 0⟩,
    .ask (.mpiFinalized true)]

theorem programs_portable_session : (Sharing.closed .idle).Behaves .apple portedSession ∧
    List.Forall₂ (Option.Rel Observation.Alike) (Sys.initial.execute .linux session).1
      (Sys.initial.execute .apple portedSession).1 := by
  have hload : Alike (acquire .linux (.offering (some mpichLibrary) 0) "libmpi.so.40".toList)
      (acquire .apple (.offering (some openmpiTwin) 0) "libmpi.so.40".toList) := by
    rw [acquire_offering (by decide +kernel), acquire_offering (by decide +kernel)]
    exact .found sameSurface_openmpiTwin
  have hinit : Call.Ports .linux .apple ⟨.init, .offering (some mpichLibrary) 0⟩
      ⟨.init, .offering (some openmpiTwin) 0⟩ :=
    { op := Or.inl rfl
      asked := by
        rintro _ _ ⟨⟩ ⟨⟩
        exact hload
      selected := nofun
      mpiInit := rfl
      mpiFinalize := rfl
      mpitInit := rfl
      mpitFinalize := rfl }
  have hfinalize : Call.Ports .linux .apple ⟨.finalize, .offering none 0⟩
      ⟨.finalize, .offering none 0⟩ :=
    { op := Or.inl rfl
      asked := nofun
      selected := nofun
      mpiInit := rfl
      mpiFinalize := rfl
      mpitInit := rfl
      mpitFinalize := rfl }
  have hports : List.Forall₂ (Action.Ports .linux .apple) session portedSession :=
    .cons (.call hinit) (.cons (.ask _) (.cons (.mpi _) (.cons (.mpi _) (.cons (.tools _)
      (.cons (.call hfinalize) (.cons (.ask _) .nil))))))
  exact programs_portable hports behaves_session

end UniMPI
