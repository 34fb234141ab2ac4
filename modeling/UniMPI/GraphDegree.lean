import UniMPI.NeighborDegree
import Mathlib.Algebra.Order.BigOperators.Group.Finset
import Mathlib.Algebra.Order.Ring.Int

/-!
# The degree on a graph, with its buffers

The graph branch of `neighbor_degree` asks `graph_get` for `nnodes` indices and
`nedges` edges. It passes an array of `nnodes` ints for the first and `NULL` for the
second, so a backend that fills what it was asked for stores through the null pointer
as soon as the graph has an edge.

`graphBranch` is the branch with its arrays: it has no value when a store or a read
falls outside of them, and otherwise the one of `graphDegree`
(`graphDegree_of_graphBranch`). The index array would give the degrees of all
processes, which are not negative and add up to the number of edges
(`Graph.degree_nonneg`, `Graph.sum_degree`), and it does so exactly on graphs without
an edge (`degreesFromIndex_iff`).
-/

namespace UniMPI

/-! ## Arrays and stores -/

/-- The arrays given to `graph_get` with what they hold. `NULL` has no element. -/
structure GraphBuffers where
  index : List Int
  edges : List Int

/-- A store of the backend into one of its arrays. -/
inductive GraphWrite
  | index (i : ℕ) (v : Int)
  | edges (i : ℕ) (v : Int)

namespace GraphBuffers

/-- One store, `none` outside the array. -/
def write (b : GraphBuffers) : GraphWrite → Option GraphBuffers
  | .index i v => if i < b.index.length then some { b with index := b.index.set i v } else none
  | .edges i v => if i < b.edges.length then some { b with edges := b.edges.set i v } else none

def writeAll : GraphBuffers → List GraphWrite → Option GraphBuffers
  | b, [] => some b
  | b, w :: ws => (b.write w).bind fun b => b.writeAll ws

/-- A store beyond the end of `edges` is a fault. -/
theorem writeAll_eq_none {i : ℕ} {v : Int} :
    ∀ {ws : List GraphWrite} {b : GraphBuffers}, GraphWrite.edges i v ∈ ws → b.edges.length ≤ i →
      b.writeAll ws = none
  | w :: ws, b, hmem, hlen => by
    rcases List.mem_cons.1 hmem with rfl | hmem
    · simp [writeAll, write, Nat.not_lt.2 hlen]
    · cases hb : b.write w with
      | none => simp [writeAll, hb]
      | some b' =>
        have hlen' : b'.edges.length ≤ i := by
          cases w <;> simp only [write] at hb <;> split_ifs at hb <;> cases hb <;> simpa using hlen
        simpa [writeAll, hb] using writeAll_eq_none hmem hlen'

/-- Stores of the elements of `f` into `index` leave an array that holds `f` wherever it did before
or is stored to. -/
theorem writeAll_index (f : ℕ → Int) :
    ∀ (ws : List GraphWrite) (b : GraphBuffers),
      (∀ w ∈ ws, ∃ i < b.index.length, w = .index i (f i)) →
      ∃ b', b.writeAll ws = some b' ∧ ∀ i < b.index.length,
        b.index[i]? = some (f i) ∨ GraphWrite.index i (f i) ∈ ws → b'.index[i]? = some (f i)
  | [], b, _ => ⟨b, rfl, fun i _ h => by simpa using h⟩
  | w :: ws, b, h => by
    obtain ⟨j, hj, rfl⟩ := h w List.mem_cons_self
    obtain ⟨b', hrun, hkeep⟩ := writeAll_index f ws { b with index := b.index.set j (f j) }
      fun w hw => by simpa using h w (List.mem_cons_of_mem _ hw)
    refine ⟨b', by simpa [writeAll, write, hj] using hrun, fun i hi hor => ?_⟩
    refine hkeep i (by simpa using hi) ?_
    by_cases hij : i = j
    · subst hij
      exact Or.inl (by simp [hi])
    · rcases hor with hget | hmem
      · exact Or.inl (by simpa [List.getElem?_set, Ne.symm hij] using hget)
      · rcases List.mem_cons.1 hmem with heq | hmem
        · cases heq
          exact absurd rfl hij
        · exact Or.inr hmem

end GraphBuffers

/-! ## The branch -/

/-- What the slots of the graph branch answer; `none` is a slot the backend does not export. -/
structure GraphQueries where
  graphdimsGet : Option (Int × Int × Int)
  /-- From `maxindex` and `maxedges` to the return code and the stores. -/
  graphGet : Option (Int → Int → Int × List GraphWrite)
  commRank : Option (Int × Int)
  /-- What the array from `malloc` holds; `none` when there is no room. -/
  fresh : Option (ℕ → Int)

/-- An element of an array, `none` outside of it. -/
def readInt (a : List Int) (i : Int) : Option Int :=
  if i < 0 then none else a[i.toNat]?

/-- `(rank == 0) ? index[0] : index[rank] - index[rank - 1]`. -/
def degreeAt (index : List Int) (rank : Int) : Option Int :=
  if rank = 0 then readInt index 0
  else do
    let upper ← readInt index rank
    let lower ← readInt index (rank - 1)
    return upper - lower

/-- The graph branch of `neighbor_degree`: return code, `*indegree`, `*outdegree`, or `none` when
an array is left. -/
def graphBranch (c : TopologyConstants) (q : GraphQueries) : Option (Int × Int × Int) :=
  match q.graphdimsGet, q.graphGet, q.commRank with
  | some (rc, nnodes, nedges), some graphGet, some (rankRc, rank) =>
    if rc ≠ c.success then some (rc, 0, 0)
    else
      match q.fresh with
      | none => some (c.errNoMem, 0, 0)
      | some fresh =>
        let got := graphGet nnodes nedges
        -- `edges` is `NULL`
        match GraphBuffers.writeAll ⟨(List.range nnodes.toNat).map fresh, []⟩ got.2 with
        | none => none
        | some b =>
          if got.1 ≠ c.success then some (got.1, 0, 0)
          else if rankRc ≠ c.success then some (rankRc, 0, 0)
          else (degreeAt b.index rank).map fun deg => (rankRc, deg, deg)
  | _, _, _ => some (c.errTopology, 0, 0)

/-- What `graph_get` leaves in `index`. -/
def GraphQueries.indexAfter (q : GraphQueries) (nnodes : Int) (writes : List GraphWrite) :
    Int → Int :=
  match q.fresh with
  | none => fun _ => 0
  | some fresh =>
    match GraphBuffers.writeAll ⟨(List.range nnodes.toNat).map fresh, []⟩ writes with
    | none => fun _ => 0
    | some b => fun i => (readInt b.index i).getD 0

/-- The answers without the arrays, for a communicator with a graph. -/
def GraphQueries.topology (c : TopologyConstants) (q : GraphQueries) : TopologyQueries where
  topoTest := some (c.success, c.graph)
  cartdimGet := none
  cartGet := none
  graphdimsGet := q.graphdimsGet
  graphGet := q.graphGet.map fun graphGet maxindex maxedges =>
    ((graphGet maxindex maxedges).1, q.indexAfter maxindex (graphGet maxindex maxedges).2)
  commRank := q.commRank
  distGraphNeighborsCount := none
  mallocOk := q.fresh.isSome

/-- The degree read from an array is computed from its elements. -/
theorem degreeAt_eq {index : List Int} {rank deg : Int} (h : degreeAt index rank = some deg) :
    (if rank = 0 then (readInt index 0).getD 0
      else (readInt index rank).getD 0 - (readInt index (rank - 1)).getD 0) = deg := by
  unfold degreeAt at h
  split_ifs at h ⊢ with hrank
  · rw [h, Option.getD_some]
  · obtain ⟨upper, hupper, h⟩ := Option.bind_eq_some_iff.1 h
    obtain ⟨lower, hlower, h⟩ := Option.bind_eq_some_iff.1 h
    rw [hupper, hlower]
    exact Option.some.inj h

/-- A branch that stays in its arrays is the one without them. -/
theorem graphDegree_of_graphBranch {c : TopologyConstants} {q : GraphQueries}
    {r : Int × Int × Int} (h : graphBranch c q = some r) :
    graphDegree c (q.topology c) = r := by
  obtain ⟨graphdimsGet, graphGet, commRank, fresh⟩ := q
  rcases graphdimsGet with - | ⟨rc, nnodes, nedges⟩
  · simpa [graphBranch, graphDegree, GraphQueries.topology] using h
  rcases graphGet with - | graphGet
  · simpa [graphBranch, graphDegree, GraphQueries.topology] using h
  rcases commRank with - | ⟨rankRc, rank⟩
  · simpa [graphBranch, graphDegree, GraphQueries.topology] using h
  by_cases hrc : rc = c.success
  · subst hrc
    cases fresh with
    | none => simpa [graphBranch, graphDegree, GraphQueries.topology] using h
    | some fresh =>
      cases hw : GraphBuffers.writeAll ⟨(List.range nnodes.toNat).map fresh, []⟩
          (graphGet nnodes nedges).2 with
      | none => simp [graphBranch, hw] at h
      | some b =>
        simp only [graphBranch, hw, ne_eq, not_true_eq_false, if_false] at h
        simp only [graphDegree, GraphQueries.topology, GraphQueries.indexAfter, hw, Option.map_some,
          Option.isSome_some, Bool.not_true, Bool.false_eq_true, ne_eq, not_true_eq_false, if_false]
        by_cases hgot : (graphGet nnodes nedges).1 = c.success
        · by_cases hrank : rankRc = c.success
          · rw [if_neg (not_not_intro hgot), if_neg (not_not_intro hrank)] at h ⊢
            obtain ⟨deg, hdeg, rfl⟩ := Option.map_eq_some_iff.1 h
            rw [degreeAt_eq hdeg]
          · simpa [hgot, hrank] using h
        · simpa [hgot] using h
  · simpa [graphBranch, graphDegree, GraphQueries.topology, hrc] using h

/-! ## Graphs -/

/-- A graph as MPI stores it: `index` holds the cumulative degrees of its nodes, `edges` their
neighbors. -/
structure Graph where
  nnodes : ℕ
  index : ℕ → ℕ
  edges : ℕ → ℕ
  nnodes_pos : 1 ≤ nnodes
  index_mono : ∀ i, i + 1 < nnodes → index i ≤ index (i + 1)

namespace Graph

variable (g : Graph)

/-- The number of edges. -/
def nedges : ℕ :=
  g.index (g.nnodes - 1)

/-- The degree of a process: `index[rank] - index[rank - 1]`, on rank `0` `index[0]`. -/
def degree (rank : ℕ) : Int :=
  if rank = 0 then g.index 0 else (g.index rank : Int) - g.index (rank - 1)

theorem degree_nonneg {rank : ℕ} (h : rank < g.nnodes) : 0 ≤ g.degree rank := by
  cases rank with
  | zero => exact Int.natCast_nonneg _
  | succ rank =>
    have := g.index_mono rank h
    simp only [degree, Nat.succ_ne_zero, if_false, Nat.add_sub_cancel]
    omega

/-- The degrees of the first ranks telescope. -/
theorem sum_degree_range (k : ℕ) : ∑ rank ∈ Finset.range (k + 1), g.degree rank = g.index k := by
  induction k with
  | zero => simp [degree]
  | succ k ih =>
    rw [Finset.sum_range_succ, ih, degree, if_neg (Nat.succ_ne_zero k), Nat.add_sub_cancel]
    omega

/-- Over all ranks the degrees add up to the number of edges. -/
theorem sum_degree : ∑ rank ∈ Finset.range g.nnodes, g.degree rank = g.nedges := by
  obtain ⟨k, hk⟩ := Nat.exists_eq_add_of_le' g.nnodes_pos
  rw [nedges, hk, Nat.add_sub_cancel]
  exact g.sum_degree_range k

/-- Without an edge every degree is zero. -/
theorem degree_eq_zero (h : g.nedges = 0) {rank : ℕ} (hrank : rank < g.nnodes) :
    g.degree rank = 0 := by
  have hsum : ∑ rank ∈ Finset.range g.nnodes, g.degree rank = 0 := by
    rw [g.sum_degree, h, Nat.cast_zero]
  have hzero := (Finset.sum_eq_zero_iff_of_nonneg fun r hr =>
    g.degree_nonneg (Finset.mem_range.1 hr)).1 hsum
  exact hzero rank (Finset.mem_range.2 hrank)

/-- The stores that fill `index[0..maxindex)` and `edges[0..maxedges)`. -/
def Fills (maxindex maxedges : ℕ) : GraphWrite → Prop
  | .index i v => i < maxindex ∧ v = g.index i
  | .edges i v => i < maxedges ∧ v = g.edges i

/-- The backend answers for the process as MPI specifies, `graph_get` storing in any order. Whether
`malloc` has room is left open. -/
structure Serves (c : TopologyConstants) (rank : ℕ) (q : GraphQueries) : Prop where
  dims : q.graphdimsGet = some (c.success, (g.nnodes : Int), (g.nedges : Int))
  get : ∃ graphGet writes, q.graphGet = some graphGet ∧
    graphGet g.nnodes g.nedges = (c.success, writes) ∧
    ∀ w, w ∈ writes ↔ g.Fills g.nnodes g.nedges w
  rank : q.commRank = some (c.success, (rank : Int))

variable {g}

/-- A filled index array yields the degree of every process. -/
theorem degreeAt_filled {a : List Int} (h : ∀ i < g.nnodes, a[i]? = some (g.index i : Int))
    {rank : ℕ} (hrank : rank < g.nnodes) : degreeAt a rank = some (g.degree rank) := by
  cases rank with
  | zero => simp [degreeAt, readInt, degree, h 0 hrank]
  | succ rank =>
    have hupper : readInt a (rank + 1 : ℕ) = some (g.index (rank + 1) : Int) := h (rank + 1) hrank
    have hlower : readInt a (rank : ℕ) = some (g.index rank : Int) := h rank (by omega)
    have hpred : ((rank + 1 : ℕ) : Int) - 1 = (rank : ℕ) := by omega
    rw [degreeAt, if_neg (by omega), hupper, hpred, hlower, degree, if_neg (Nat.succ_ne_zero rank)]
    rfl

/-- What the graph branch does on a process of the graph. -/
theorem Serves.graphBranch_eq {c : TopologyConstants} {rank : ℕ} {q : GraphQueries}
    (h : g.Serves c rank q) (hrank : rank < g.nnodes) :
    graphBranch c q =
      if q.fresh.isNone then some (c.errNoMem, 0, 0)
      else if 0 < g.nedges then none
      else some (c.success, g.degree rank, g.degree rank) := by
  obtain ⟨graphGet, writes, hget, hgot, hfill⟩ := h.get
  simp only [graphBranch, h.dims, hget, h.rank, hgot, ne_eq, not_true_eq_false, if_false]
  cases hfresh : q.fresh with
  | none => rfl
  | some fresh =>
    simp only [Option.isNone_some, Bool.false_eq_true, if_false]
    split_ifs with hedges
    · have hnull : GraphWrite.edges 0 (g.edges 0) ∈ writes := (hfill _).2 ⟨hedges, rfl⟩
      rw [GraphBuffers.writeAll_eq_none hnull (Nat.zero_le _)]
    · obtain ⟨b, hrun, hkeep⟩ := GraphBuffers.writeAll_index (fun i => (g.index i : Int)) writes
        ⟨(List.range (g.nnodes : Int).toNat).map fresh, []⟩ fun w hw => by
          have hw := (hfill w).1 hw
          cases w with
          | index i v => exact ⟨i, by simpa using hw.1, by rw [hw.2]⟩
          | edges i v => exact absurd hw.1 (by omega)
      have hindex : ∀ i < g.nnodes, b.index[i]? = some (g.index i : Int) := fun i hi =>
        hkeep i (by simpa using hi) (Or.inr ((hfill _).2 ⟨hi, rfl⟩))
      rw [hrun]
      dsimp only
      rw [degreeAt_filled hindex hrank]
      rfl

end Graph

/-- On every process the branch stays in its arrays, succeeds and returns the degree on both sides;
the degrees are not negative and add up to the number of edges. -/
structure DegreesFromIndex (c : TopologyConstants) (g : Graph) (q : ℕ → GraphQueries) : Prop where
  degree : ∀ rank < g.nnodes,
    graphBranch c (q rank) = some (c.success, g.degree rank, g.degree rank)
  nonneg : ∀ rank < g.nnodes, 0 ≤ g.degree rank
  sum : ∑ rank ∈ Finset.range g.nnodes, g.degree rank = g.nedges

/-- For every graph, the degrees come from the index array on every process exactly if the graph
has no edge and `malloc` has room, or its failure is no error. -/
theorem degreesFromIndex_iff {c : TopologyConstants} {g : Graph} {q : ℕ → GraphQueries}
    (h : ∀ rank < g.nnodes, g.Serves c rank (q rank)) :
    DegreesFromIndex c g q ↔ g.nedges = 0 ∧
      ∀ rank < g.nnodes, (q rank).fresh.isSome ∨ c.errNoMem = c.success := by
  constructor
  · intro hd
    have hno : ∀ rank < g.nnodes, (q rank).fresh.isNone → c.errNoMem = c.success ∧
        g.degree rank = 0 := by
      intro rank hrank hnone
      have hdeg := hd.degree rank hrank
      rw [(h rank hrank).graphBranch_eq hrank, if_pos hnone] at hdeg
      have hparts := Option.some.inj hdeg
      simp only [Prod.mk.injEq] at hparts
      exact ⟨hparts.1, hparts.2.1.symm⟩
    refine ⟨?_, fun rank hrank => ?_⟩
    · by_contra hedges
      -- with an edge only a process without room stays in its arrays
      have hzero : ∀ rank ∈ Finset.range g.nnodes, g.degree rank = 0 := by
        intro rank hmem
        have hrank := Finset.mem_range.1 hmem
        refine (hno rank hrank ?_).2
        by_contra hsome
        have hdeg := hd.degree rank hrank
        rw [(h rank hrank).graphBranch_eq hrank, if_neg hsome,
          if_pos (Nat.pos_of_ne_zero hedges)] at hdeg
        cases hdeg
      have hsum := g.sum_degree
      rw [Finset.sum_eq_zero hzero] at hsum
      omega
    · cases hfresh : (q rank).fresh with
      | none => exact Or.inr (hno rank hrank (by rw [hfresh]; rfl)).1
      | some fresh => exact Or.inl rfl
  · rintro ⟨hedges, hroom⟩
    refine ⟨fun rank hrank => ?_, fun rank hrank => g.degree_nonneg hrank, g.sum_degree⟩
    rw [(h rank hrank).graphBranch_eq hrank, g.degree_eq_zero hedges hrank, hedges]
    cases hfresh : (q rank).fresh with
    | none =>
      have hno : c.errNoMem = c.success := (hroom rank hrank).resolve_left (by simp [hfresh])
      simp [hno]
    | some fresh => simp

/-! ## Two nodes and an edge between them -/

/-- A backend that fills the arrays from their start. -/
def Graph.server (g : Graph) (c : TopologyConstants) (rank : ℕ) : GraphQueries where
  graphdimsGet := some (c.success, (g.nnodes : Int), (g.nedges : Int))
  graphGet := some fun maxindex maxedges => (c.success,
    (List.range maxindex.toNat).map (fun i => .index i (g.index i)) ++
      (List.range maxedges.toNat).map fun i => .edges i (g.edges i))
  commRank := some (c.success, (rank : Int))
  fresh := some fun _ => 0

theorem Graph.serves_server (g : Graph) (c : TopologyConstants) (rank : ℕ) :
    g.Serves c rank (g.server c rank) where
  dims := rfl
  get := by
    refine ⟨_, _, rfl, rfl, fun w => ?_⟩
    cases w with
    | index i v => simp [Fills, eq_comm]
    | edges i v => simp [Fills, eq_comm]
  rank := rfl

/-- Two neighbors. -/
def pairGraph : Graph where
  nnodes := 2
  index i := i + 1
  edges i := 1 - i
  nnodes_pos := by decide
  index_mono i _ := Nat.le_succ (i + 1)

/-- The values of the MPICH table. -/
def pairConstants : TopologyConstants :=
  ⟨2, 1, 0, 10, 34⟩

theorem degreesFromIndex_iff_pair :
    DegreesFromIndex pairConstants pairGraph (pairGraph.server pairConstants) ↔
      pairGraph.nedges = 0 ∧ ∀ rank < pairGraph.nnodes,
        (pairGraph.server pairConstants rank).fresh.isSome ∨
          pairConstants.errNoMem = pairConstants.success :=
  degreesFromIndex_iff fun rank _ => pairGraph.serves_server pairConstants rank

/-- The backend stores the first edge through `NULL`. -/
theorem not_degreesFromIndex_pair :
    (∀ rank < pairGraph.nnodes,
      pairGraph.Serves pairConstants rank (pairGraph.server pairConstants rank)) ∧
      ¬DegreesFromIndex pairConstants pairGraph (pairGraph.server pairConstants) := by
  refine ⟨fun rank _ => pairGraph.serves_server pairConstants rank, fun h => ?_⟩
  have hdeg := h.degree 0 (by decide)
  rw [(pairGraph.serves_server pairConstants 0).graphBranch_eq (by decide)] at hdeg
  revert hdeg
  decide

end UniMPI
