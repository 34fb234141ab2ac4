import UniMPI.Lib.CountedLoop

/-!
# The neighbor degree of a communicator

`neighborDegree` is `neighbor_degree` of the integer-handle adapters: the
numbers of handles in the send and the receive array of a neighbor collective,
asked from the backend through the topology slots of the vtable. What the
backend answers is a parameter, `TopologyQueries`, with a missing slot as
`none`. A successful query of a Cartesian or graph communicator reports one
number for both sides (`neighborDegree_symm`).
-/

namespace UniMPI

open CountedLoop

/-- The runtime constants that `neighbor_degree` compares with or returns. -/
structure TopologyConstants where
  cart : Int
  graph : Int
  success : Int
  errTopology : Int
  errNoMem : Int

/-- What the topology slots answer for one communicator: the return code, then the output
arguments; `none` is a slot the backend does not export. -/
structure TopologyQueries where
  topoTest : Option (Int × Int)
  cartdimGet : Option (Int × Int)
  /-- From `maxdims` to `dims`, `periods` and `coords`. -/
  cartGet : Option (Int → Int × (Int → Int) × (Int → Int) × (Int → Int))
  graphdimsGet : Option (Int × Int × Int)
  /-- From `maxindex` and `maxedges` to `index`. -/
  graphGet : Option (Int → Int → Int × (Int → Int))
  commRank : Option (Int × Int)
  distGraphNeighborsCount : Option (Int × Int × Int)
  /-- Whether `malloc` has room for the local arrays. -/
  mallocOk : Bool

/-- The neighbors that dimension `i` of a Cartesian grid adds to `deg`. -/
def addDimension (dims periods coords : Int → Int) (i : ℕ) (deg : Int) : Int :=
  if dims i ≤ 1 then deg
  else if periods i ≠ 0 then deg + 2
  else
    (deg + if coords i > 0 then 1 else 0) + if coords i < dims i - 1 then 1 else 0

/-- The Cartesian branch: return code, indegree, outdegree. -/
def cartDegree (c : TopologyConstants) (q : TopologyQueries) : Int × Int × Int :=
  match q.cartdimGet, q.cartGet with
  | some (rc, ndims), some cartGet =>
    if rc ≠ c.success then (rc, 0, 0)
    else if ndims ≤ 0 then (c.success, 0, 0)
    else if !q.mallocOk then (c.errNoMem, 0, 0)
    else
      let (rc, dims, periods, coords) := cartGet ndims
      if rc = c.success then
        let deg := up (addDimension dims periods coords) 0 ndims.toNat 0
        (rc, deg, deg)
      else (rc, 0, 0)
  | _, _ => (c.errTopology, 0, 0)

/-- The graph branch. -/
def graphDegree (c : TopologyConstants) (q : TopologyQueries) : Int × Int × Int :=
  match q.graphdimsGet, q.graphGet, q.commRank with
  | some (rc, nnodes, nedges), some graphGet, some (rankRc, rank) =>
    if rc ≠ c.success then (rc, 0, 0)
    else if !q.mallocOk then (c.errNoMem, 0, 0)
    else
      let got := graphGet nnodes nedges
      if got.1 ≠ c.success then (got.1, 0, 0)
      else if rankRc ≠ c.success then (rankRc, 0, 0)
      else
        let deg := if rank = 0 then got.2 0 else got.2 rank - got.2 (rank - 1)
        (rankRc, deg, deg)
  | _, _, _ => (c.errTopology, 0, 0)

/-- The branch of distributed graphs and of communicators without a topology. -/
def distGraphDegree (c : TopologyConstants) (q : TopologyQueries) : Int × Int × Int :=
  match q.distGraphNeighborsCount with
  | some answer => answer
  | none => (c.errTopology, 0, 0)

/-- `neighbor_degree`: return code, `*indegree`, `*outdegree`. -/
def neighborDegree (c : TopologyConstants) (q : TopologyQueries) : Int × Int × Int :=
  match q.topoTest with
  | none => (c.errTopology, 0, 0)
  | some (rc, topoType) =>
    if rc ≠ c.success then (rc, 0, 0)
    else if topoType = c.cart then cartDegree c q
    else if topoType = c.graph then graphDegree c q
    else distGraphDegree c q

theorem cartDegree_symm (c : TopologyConstants) (q : TopologyQueries) :
    (cartDegree c q).2.1 = (cartDegree c q).2.2 := by
  unfold cartDegree
  split
  · dsimp only
    split_ifs <;> rfl
  · rfl

theorem graphDegree_symm (c : TopologyConstants) (q : TopologyQueries) :
    (graphDegree c q).2.1 = (graphDegree c q).2.2 := by
  unfold graphDegree
  split
  · dsimp only
    split_ifs <;> rfl
  · rfl

/-- Only a distributed graph has different in- and outdegrees. -/
theorem neighborDegree_symm (c : TopologyConstants) (q : TopologyQueries)
    {rc topoType : Int} (h : q.topoTest = some (rc, topoType))
    (htopo : topoType = c.cart ∨ topoType = c.graph) :
    (neighborDegree c q).2.1 = (neighborDegree c q).2.2 := by
  unfold neighborDegree
  rw [h]
  dsimp only
  split_ifs with hrc hcart hgraph
  · rfl
  · exact cartDegree_symm c q
  · exact graphDegree_symm c q
  · exact absurd htopo (by simp [hcart, hgraph])

end UniMPI
