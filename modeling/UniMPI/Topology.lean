import UniMPI.TypeArrayAliasing

/-!
# Degrees and topologies

A neighbor collective reads one entry for each neighbor, and a missing neighbor at
the edge of a Cartesian grid keeps its entry: a process of an `n`-dimensional grid
has `2 n` of them. `neighbor_degree` leaves out the entries of missing neighbors and
of dimensions of width one.

`Topology` is what the backend knows of a communicator and `Answers` what its queries
then return. `neighborDegree_cart_iff` : the adapters count `2 n` entries, and convert
every handle that the backend reads from separate arrays, exactly for the processes
that have all their neighbors in a grid without dimensions of width one. On graphs and
distributed graphs the count is right (`neighborDegree_le`).
-/

namespace UniMPI

open ByteMemory CountedLoop

/-! ## Topologies -/

/-- A Cartesian grid and the place of a process in it. -/
structure CartGrid where
  ndims : ℕ
  dims : Int → Int
  periods : Int → Int
  coords : Int → Int
  ndims_pos : 0 < ndims
  coords_mem : ∀ i : ℕ, i < ndims → 0 ≤ coords i ∧ coords i < dims i

/-- The topology of a communicator, as one of its processes sees it. -/
inductive Topology
  | cart (g : CartGrid)
  /-- A process of a graph, with its number of neighbors. -/
  | graph (neighbors : ℕ)
  | distGraph (indegree outdegree : ℕ)

/-- The entries of the receive side of a neighbor collective. -/
def Topology.indegree : Topology → ℕ
  | cart g => 2 * g.ndims
  | graph neighbors => neighbors
  | distGraph indegree _ => indegree

/-- The entries of the send side. -/
def Topology.outdegree : Topology → ℕ
  | cart g => 2 * g.ndims
  | graph neighbors => neighbors
  | distGraph _ outdegree => outdegree

/-- The queries answer for the topology as MPI specifies; whether `malloc` succeeds is left open. -/
def Answers (c : TopologyConstants) (q : TopologyQueries) : Topology → Prop
  | .cart g =>
    q.topoTest = some (c.success, c.cart) ∧ q.cartdimGet = some (c.success, (g.ndims : Int)) ∧
      ∃ cartGet dims periods coords, q.cartGet = some cartGet ∧
        cartGet g.ndims = (c.success, dims, periods, coords) ∧
        ∀ i : ℕ, i < g.ndims → dims i = g.dims i ∧ periods i = g.periods i ∧ coords i = g.coords i
  | .graph neighbors =>
    q.topoTest = some (c.success, c.graph) ∧ c.graph ≠ c.cart ∧
      ∃ nnodes nedges graphGet index rank, q.graphdimsGet = some (c.success, nnodes, nedges) ∧
        q.graphGet = some graphGet ∧ graphGet nnodes nedges = (c.success, index) ∧
        q.commRank = some (c.success, rank) ∧
        (if rank = 0 then index 0 else index rank - index (rank - 1)) = neighbors
  | .distGraph indegree outdegree =>
    ∃ topoType, q.topoTest = some (c.success, topoType) ∧ topoType ≠ c.cart ∧
      topoType ≠ c.graph ∧
      q.distGraphNeighborsCount = some (c.success, (indegree : Int), (outdegree : Int))

/-! ## The count on a grid -/

/-- Both neighbors of the process in dimension `i` exist and are not the process itself. -/
def CartGrid.Inner (g : CartGrid) (i : ℕ) : Prop :=
  2 ≤ g.dims i ∧ (g.periods i ≠ 0 ∨ 0 < g.coords i ∧ g.coords i < g.dims i - 1)

/-- The count of `neighbor_degree` on a grid. -/
def CartGrid.count (g : CartGrid) : Int :=
  up (addDimension g.dims g.periods g.coords) 0 g.ndims 0

/-- A dimension adds at most two, and two exactly if the process is inner in it. -/
theorem CartGrid.addDimension_cases (g : CartGrid) (i : ℕ) (deg : Int) :
    deg ≤ addDimension g.dims g.periods g.coords i deg ∧
      addDimension g.dims g.periods g.coords i deg ≤ deg + 2 ∧
      (addDimension g.dims g.periods g.coords i deg = deg + 2 ↔ g.Inner i) := by
  unfold addDimension Inner
  split_ifs <;> omega

/-- After `i` dimensions the count lies between zero and two for each, and has reached the upper
bound exactly if the process is inner in all of them. -/
def CartGrid.Counted (g : CartGrid) (i : ℕ) (deg : Int) : Prop :=
  0 ≤ deg ∧ deg ≤ 2 * i ∧ (deg = 2 * i ↔ ∀ j < i, g.Inner j)

theorem CartGrid.Counted.succ {g : CartGrid} {i : ℕ} {deg : Int} (h : g.Counted i deg) :
    g.Counted (i + 1) (addDimension g.dims g.periods g.coords i deg) := by
  obtain ⟨hnonneg, hle, hiff⟩ := h
  obtain ⟨hmono, hadd, hinner⟩ := g.addDimension_cases i deg
  refine ⟨by omega, by push_cast; omega, ?_⟩
  rw [Nat.forall_lt_succ_right, ← hiff, ← hinner]
  push_cast
  omega

theorem CartGrid.counted_count (g : CartGrid) : g.Counted g.ndims g.count := by
  have hstart : g.Counted 0 0 := ⟨le_rfl, le_rfl, by simp⟩
  have hend := up_invariant (P := g.Counted) g.ndims 0 0 hstart fun _ _ _ _ h => h.succ
  rwa [Nat.zero_add] at hend

/-! ## The answer of `neighbor_degree` -/

section NeighborDegree

variable {c : TopologyConstants} {q : TopologyQueries}

theorem neighborDegree_cart {g : CartGrid} (h : Answers c q (.cart g)) :
    neighborDegree c q =
      if q.mallocOk then (c.success, g.count, g.count) else (c.errNoMem, 0, 0) := by
  obtain ⟨htest, hdim, cartGet, dims, periods, coords, hget, hanswer, hsame⟩ := h
  have hpos := g.ndims_pos
  have hcount : up (addDimension dims periods coords) 0 g.ndims 0 = g.count := by
    refine up_congr _ _ _ fun i deg _ hi => ?_
    obtain ⟨hdims, hperiods, hcoords⟩ := hsame i (by omega)
    simp only [addDimension, hdims, hperiods, hcoords]
  cases hmalloc : q.mallocOk with
  | false => simp [neighborDegree, htest, cartDegree, hdim, hget, hmalloc, hpos.ne']
  | true =>
    simp [neighborDegree, htest, cartDegree, hdim, hget, hanswer, hmalloc, hcount, hpos.ne']

theorem neighborDegree_graph {neighbors : ℕ} (h : Answers c q (.graph neighbors)) :
    neighborDegree c q = if q.mallocOk then (c.success, (neighbors : Int), (neighbors : Int))
      else (c.errNoMem, 0, 0) := by
  obtain ⟨htest, hne, nnodes, nedges, graphGet, index, rank, hdims, hget, hanswer, hrank, hdeg⟩ := h
  cases hmalloc : q.mallocOk with
  | false => simp [neighborDegree, htest, hne, graphDegree, hdims, hget, hrank, hmalloc]
  | true =>
    simp [neighborDegree, htest, hne, graphDegree, hdims, hget, hrank, hmalloc, hanswer, hdeg]

theorem neighborDegree_distGraph {indegree outdegree : ℕ}
    (h : Answers c q (.distGraph indegree outdegree)) :
    neighborDegree c q = (c.success, (indegree : Int), (outdegree : Int)) := by
  obtain ⟨topoType, htest, hcart, hgraph, hcount⟩ := h
  simp [neighborDegree, htest, hcart, hgraph, distGraphDegree, hcount]

/-- The adapters never count more entries than there are. -/
theorem neighborDegree_le {top : Topology} (h : Answers c q top) :
    (neighborDegree c q).2.1.toNat ≤ top.indegree ∧
      (neighborDegree c q).2.2.toNat ≤ top.outdegree := by
  cases top with
  | cart g =>
    have hle := g.counted_count.2.1
    rw [neighborDegree_cart h]
    split_ifs
    · simp only [Topology.indegree, Topology.outdegree]
      omega
    · exact ⟨Nat.zero_le _, Nat.zero_le _⟩
  | graph neighbors =>
    rw [neighborDegree_graph h]
    split_ifs
    · exact ⟨Nat.le_refl _, Nat.le_refl _⟩
    · exact ⟨Nat.zero_le _, Nat.zero_le _⟩
  | distGraph indegree outdegree =>
    rw [neighborDegree_distGraph h]
    exact ⟨Nat.le_refl _, Nat.le_refl _⟩

/-- The count of a process of a grid is the number of its entries exactly if it is inner. -/
theorem neighborDegree_eq_entries_iff {g : CartGrid} (h : Answers c q (.cart g)) :
    neighborDegree c q = (c.success, 2 * (g.ndims : Int), 2 * (g.ndims : Int)) ↔
      q.mallocOk = true ∧ ∀ i < g.ndims, g.Inner i := by
  obtain ⟨-, -, hiff⟩ := g.counted_count
  have hpos := g.ndims_pos
  rw [neighborDegree_cart h, ← hiff]
  cases q.mallocOk with
  | true => simp
  | false =>
    simp only [Bool.false_eq_true, if_false, Prod.mk.injEq, false_and, iff_false]
    omega

end NeighborDegree

/-! ## The handles the backend reads -/

/-- Whatever memory holds, the native call is made on one whose first `n` int slots behind both
array pointers hold the native forms of the caller's handles. -/
def ConvertsRead (q : CommQueries) (a : TypeArrayArgs) (n : ℕ) : Prop :=
  ∀ m, ∃ handed, (∀ native, (wrapNeighborAlltoallw q (fun _ => native) a m).1 = (native handed).1) ∧
    ∀ i < n, load32 handed (a.sendtypes + 4 * i) = nativeForm (load64 m (a.sendtypes + 8 * i)) ∧
      load32 handed (a.recvtypes + 4 * i) = nativeForm (load64 m (a.recvtypes + 8 * i))

/-- Two arrays of `n` handles that can be compressed one after the other whatever they hold: the int
slots of the send array end before the receive array or begin behind all but its last handle, or
there is one array of at most two handles. -/
def TypeArrayArgs.Separate (a : TypeArrayArgs) (n : ℕ) : Prop :=
  a.sendtypes + 4 * n ≤ a.recvtypes ∨ a.recvtypes + 8 * n ≤ a.sendtypes + 8 ∨
    a.sendtypes = a.recvtypes ∧ n ≤ 2

section ConvertsRead

variable {q : CommQueries} {a : TypeArrayArgs}

/-- A native call that is made sees the compressed arrays. -/
theorem load32_handed {indeg outdeg : Int} {m handed : Mem}
    (hdeg : neighborDegree q.constants (q.topology a.comm) =
      (q.constants.success, indeg, outdeg))
    (h : ∀ native, (wrapNeighborAlltoallw q (fun _ => native) a m).1 = (native handed).1) (x : ℕ) :
    load32 handed x = load32 (compressTypes (a.arrays outdeg indeg) m) x := by
  have hread := h (TypeArrays.reader x)
  simp only [wrapNeighborAlltoallw, withNeighborArrays, hdeg, ne_eq, not_true_eq_false,
    if_false] at hread
  exact ((a.arrays outdeg indeg).load32_eq_of_reader hread).symm

/-- Compressing leaves the words outside the int slots of both arrays alone. -/
theorem load32_compressTypes_of_notMem (t : TypeArrays) (m : Mem) {x : ℕ}
    (hsend : x + 4 ≤ t.sendtypes ∨ t.sendtypes + 4 * t.outdeg.toNat ≤ x)
    (hrecv : x + 4 ≤ t.recvtypes ∨ t.recvtypes + 4 * t.indeg.toNat ≤ x) :
    load32 (compressTypes t m) x = load32 m x := by
  have hagree : AgreeOn x (x + 4) (compressTypes t m) m := by
    intro y hlo hhi
    unfold compressTypes dtypesCompressInplace
    rw [compressInplace_apply_of_notMem _ _ _ (by omega),
      compressInplace_apply_of_notMem _ _ _ (by omega)]
  exact hagree.load32_eq le_rfl le_rfl

/-- Two words that do not overlap need not hold the same. -/
theorem exists_load32_ne {x y : ℕ} (h : x + 4 ≤ y ∨ y + 4 ≤ x) :
    ∃ m, load32 m x ≠ load32 m y := by
  refine ⟨store32 (fun _ => 0#8) x 1#32, ?_⟩
  rw [load32_store32_self, load32_store32_disjoint _ _ (by omega)]
  simp [load32]

/-- A slot behind the first that no scan writes does not always hold its handle. -/
theorem exists_unconverted (t : TypeArrays) (base i : ℕ) (hi : 1 ≤ i)
    (hsend : base + 4 * i + 4 ≤ t.sendtypes ∨ t.sendtypes + 4 * t.outdeg.toNat ≤ base + 4 * i)
    (hrecv : base + 4 * i + 4 ≤ t.recvtypes ∨ t.recvtypes + 4 * t.indeg.toNat ≤ base + 4 * i) :
    ∃ m, load32 (compressTypes t m) (base + 4 * i) ≠ nativeForm (load64 m (base + 8 * i)) := by
  obtain ⟨m, hm⟩ := exists_load32_ne (x := base + 4 * i) (y := base + 8 * i) (Or.inl (by omega))
  refine ⟨m, ?_⟩
  rwa [load32_compressTypes_of_notMem t m hsend hrecv, nativeForm_load64]

/-- Arrays that are not separate hold handles in some memory that are not converted. -/
theorem forall_holdsNativeForms_iff (n : ℕ) :
    (∀ m, (a.arrays n n).HoldsNativeForms m (compressTypes (a.arrays n n) m)) ↔ a.Separate n := by
  have hs := a.sendtypes_aligned
  have hr := a.recvtypes_aligned
  simp only [TypeArrays.holdsNativeForms_iff, TypeArrayArgs.arrays, Int.toNat_natCast,
    TypeArrays.recvHandle, TypeArrays.sendHandle, nativeForm_load64]
  constructor
  · intro h
    by_contra hmeet
    unfold TypeArrayArgs.Separate at hmeet
    -- two handles in different places that one int slot belongs to
    obtain ⟨i, hi, j, hj, heq, hne⟩ : ∃ i < n, ∃ j < n,
        (a.recvtypes + 8 * j = a.sendtypes + 4 * i ∨ a.recvtypes + 4 * j = a.sendtypes + 4 * i) ∧
          a.recvtypes + 8 * j ≠ a.sendtypes + 8 * i := by
      rcases lt_trichotomy a.sendtypes a.recvtypes with hlt | hsame | hgt
      · exact ⟨(a.recvtypes - a.sendtypes) / 4, by omega, 0, by omega, Or.inr (by omega),
          by omega⟩
      · exact ⟨2, by omega, 1, by omega, Or.inl (by omega), by omega⟩
      · exact ⟨2, by omega, (a.sendtypes - a.recvtypes) / 8 + 1, by omega, Or.inl (by omega),
          by omega⟩
    have hapart : a.recvtypes + 8 * j + 4 ≤ a.sendtypes + 8 * i ∨
        a.sendtypes + 8 * i + 4 ≤ a.recvtypes + 8 * j := by omega
    obtain ⟨m, hm⟩ := exists_load32_ne hapart
    exact hm (h m i hi j hj heq)
  · intro hseparate m i hi j hj heq
    unfold TypeArrayArgs.Separate at hseparate
    rw [show a.recvtypes + 8 * j = a.sendtypes + 8 * i by omega]

/-- An array whose count is too small has a handle that is not converted. -/
theorem not_convertsRead_of_lt {deg : Int} {n : ℕ}
    (hdeg : neighborDegree q.constants (q.topology a.comm) = (q.constants.success, deg, deg))
    (hlt : deg.toNat < n) (hn : 2 ≤ n) : ¬ConvertsRead q a n := by
  intro h
  have ht : (a.arrays deg deg).sendtypes = a.sendtypes ∧
      (a.arrays deg deg).recvtypes = a.recvtypes ∧
      (a.arrays deg deg).outdeg = deg ∧ (a.arrays deg deg).indeg = deg := ⟨rfl, rfl, rfl, rfl⟩
  -- the last slot of the array that ends later keeps its word
  rcases Nat.le_total a.sendtypes a.recvtypes with hle | hle
  · obtain ⟨m, hm⟩ := exists_unconverted (a.arrays deg deg) a.recvtypes (n - 1) (by omega)
      (by omega) (by omega)
    obtain ⟨handed, hcall, hforms⟩ := h m
    rw [← load32_handed hdeg hcall] at hm
    exact hm (hforms (n - 1) (by omega)).2
  · obtain ⟨m, hm⟩ := exists_unconverted (a.arrays deg deg) a.sendtypes (n - 1) (by omega)
      (by omega) (by omega)
    obtain ⟨handed, hcall, hforms⟩ := h m
    rw [← load32_handed hdeg hcall] at hm
    exact hm (hforms (n - 1) (by omega)).1

/-- An adapter that returns without calling the backend converts nothing. -/
theorem not_convertsRead_of_failed {rc : Int} {n : ℕ}
    (hdeg : neighborDegree q.constants (q.topology a.comm) = (rc, 0, 0))
    (hrc : rc ≠ q.constants.success) : ¬ConvertsRead q a n := by
  intro h
  obtain ⟨handed, hcall, -⟩ := h fun _ => 0#8
  have hret := hcall fun m => (rc + 1, m)
  simp only [wrapNeighborAlltoallw, withNeighborArrays, hdeg, ne_eq, hrc, not_false_eq_true,
    if_true] at hret
  omega

/-- With the right count, every handle is converted exactly if the arrays are separate. -/
theorem convertsRead_iff_of_eq {n : ℕ}
    (hdeg : neighborDegree q.constants (q.topology a.comm) =
      (q.constants.success, (n : Int), (n : Int))) : ConvertsRead q a n ↔ a.Separate n := by
  rw [← forall_holdsNativeForms_iff]
  constructor
  · intro h m
    obtain ⟨handed, hcall, hforms⟩ := h m
    refine ⟨fun i hi => ?_, fun j hj => ?_⟩
    · rw [← load32_handed hdeg hcall]
      exact (hforms i hi).1
    · rw [← load32_handed hdeg hcall]
      exact (hforms j hj).2
  · intro h m
    refine ⟨compressTypes (a.arrays n n) m, fun native => ?_, fun i hi => ?_⟩
    · simp [wrapNeighborAlltoallw, withNeighborArrays, hdeg, withTypeArrays]
    · exact ⟨(h m).send i hi, (h m).recv i hi⟩

end ConvertsRead

/-! ## A grid of two processes -/

/-- The first of two processes in a row or, with a nonzero period, in a ring. -/
def gridOfTwo (period : Int) : CartGrid where
  ndims := 1
  dims _ := 2
  periods _ := period
  coords _ := 0
  ndims_pos := by decide
  coords_mem := by decide

/-- What the backend answers there. -/
def queriesOfTwo (period : Int) : CommQueries where
  constants := ⟨1, 2, 0, 4, 5⟩
  commSize _ := 2
  topology _ :=
    { topoTest := some (0, 1)
      cartdimGet := some (0, 1)
      cartGet := some fun _ => (0, fun _ => 2, fun _ => period, fun _ => 0)
      graphdimsGet := none
      graphGet := none
      commRank := some (0, 0)
      distGraphNeighborsCount := none
      mallocOk := true }

/-- Two handles for each side. -/
def argsOfTwo : TypeArrayArgs where
  sendbuf := 0x100
  sendcounts := 0x200
  sdispls := 0x300
  sendtypes := 0x500
  recvbuf := 0x400
  recvcounts := 0x200
  rdispls := 0x300
  recvtypes := 0x600
  comm := 0x44000000#64
  sendtypes_aligned := by decide
  recvtypes_aligned := by decide

theorem answers_gridOfTwo (period : Int) (comm : BitVec 64) :
    Answers (queriesOfTwo period).constants ((queriesOfTwo period).topology comm)
      (.cart (gridOfTwo period)) :=
  ⟨rfl, rfl, _, _, _, _, rfl, rfl, fun _ _ => ⟨rfl, rfl, rfl⟩⟩

/-! ## Results -/

/-- For every process of every Cartesian grid, `neighbor_degree` counts the `2 n` entries that the
backend reads if and only if the process has both neighbors in every dimension, the width of each is
at least two, and `malloc` succeeds; and `neighbor_alltoallw` converts the handles in all entries,
whatever they are, if and only if that is so and its arrays are separate. -/
theorem neighborDegree_cart_iff {q : CommQueries} {a : TypeArrayArgs} {g : CartGrid}
    (h : Answers q.constants (q.topology a.comm) (.cart g)) :
    (neighborDegree q.constants (q.topology a.comm) =
        (q.constants.success, 2 * (g.ndims : Int), 2 * (g.ndims : Int)) ↔
      (q.topology a.comm).mallocOk = true ∧ ∀ i < g.ndims, g.Inner i) ∧
    (ConvertsRead q a (2 * g.ndims) ↔
      ((q.topology a.comm).mallocOk = true ∧ ∀ i < g.ndims, g.Inner i) ∧
        a.Separate (2 * g.ndims)) := by
  have hentries := neighborDegree_eq_entries_iff h
  refine ⟨hentries, ?_⟩
  have hpos := g.ndims_pos
  rw [← hentries]
  by_cases hdeg : neighborDegree q.constants (q.topology a.comm) =
      (q.constants.success, 2 * (g.ndims : Int), 2 * (g.ndims : Int))
  · rw [and_iff_right hdeg]
    exact convertsRead_iff_of_eq (by rw [hdeg]; push_cast; rfl)
  · refine iff_of_false (fun hconverts => ?_) fun hboth => hdeg hboth.1
    have hcase := neighborDegree_cart h
    obtain ⟨hnonneg, hle, -⟩ := g.counted_count
    split_ifs at hcase with hmalloc
    · rw [hcase] at hdeg
      refine not_convertsRead_of_lt hcase ?_ (by omega) hconverts
      by_contra hge
      exact hdeg (by rw [show g.count = 2 * (g.ndims : Int) by omega])
    · by_cases hrc : q.constants.errNoMem = q.constants.success
      · rw [hrc] at hcase
        exact not_convertsRead_of_lt hcase (by omega) (by omega) hconverts
      · exact not_convertsRead_of_failed hcase hrc hconverts

theorem neighborDegree_cart_iff_ring :
    neighborDegree (queriesOfTwo 1).constants ((queriesOfTwo 1).topology argsOfTwo.comm) =
        (0, 2, 2) ∧ ConvertsRead (queriesOfTwo 1) argsOfTwo 2 := by
  have hinner : ∀ i < (gridOfTwo 1).ndims, (gridOfTwo 1).Inner i := fun _ _ =>
    ⟨le_rfl, Or.inl one_ne_zero⟩
  have hboth := neighborDegree_cart_iff (answers_gridOfTwo 1 argsOfTwo.comm)
  exact ⟨hboth.1.2 ⟨rfl, hinner⟩, hboth.2.2 ⟨⟨rfl, hinner⟩, Or.inl (by decide)⟩⟩

/-- In a row of two processes one of two entries is counted, and the other handle is not
converted. -/
theorem not_neighborDegree_cart :
    (¬∀ (q : CommQueries) (a : TypeArrayArgs) (g : CartGrid),
      Answers q.constants (q.topology a.comm) (.cart g) → (q.topology a.comm).mallocOk = true →
      neighborDegree q.constants (q.topology a.comm) =
        (q.constants.success, 2 * (g.ndims : Int), 2 * (g.ndims : Int))) ∧
    ¬ConvertsRead (queriesOfTwo 0) argsOfTwo 2 := by
  have hdeg : neighborDegree (queriesOfTwo 0).constants ((queriesOfTwo 0).topology argsOfTwo.comm) =
      (0, 1, 1) := by decide
  constructor
  · intro hall
    have h := hall (queriesOfTwo 0) argsOfTwo (gridOfTwo 0) (answers_gridOfTwo 0 _) rfl
    rw [hdeg] at h
    exact absurd h (by decide)
  · exact not_convertsRead_of_lt hdeg (by decide) le_rfl

end UniMPI
