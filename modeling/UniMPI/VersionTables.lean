import Mathlib.Data.Prod.Lex
import Mathlib.Order.Bounds.Basic
import UniMPI.AlwaysPresent
import UniMPI.Lib.Assignments
import UniMPI.Lib.Numeral

/-!
# The version tables

The `check` command of the version gate. It reads the version table and the cluster
table, both rows of columns between commas, and compares them with the registry: the
declared version of a cluster must be the greatest version of its members, and every
entity must belong to exactly one cluster. With `--require-guards` the guard checker
runs on the rows.

The command passes exactly if every line of the two files is a row, a header, a
comment or blank and the two tables agree (`runCheck_eq_ok_nil_iff`), where the last
row of an entity gives its version and versions are compared lexicographically.
-/

namespace UniMPI

open Assignments LinePattern Numeral

/-! ## The failures -/

/-- A pair `(maj, min)`, ordered as Python orders it. -/
abbrev Version := ℤ ×ₗ ℤ

/-- The version a row of the cluster table declares. -/
def ClusterRow.version (row : ClusterRow) : Version :=
  toLex (row.maj, row.mn)

inductive TableFailure
  | columns (path : String) (lineno ncols got : ℕ)
  | apiVersion (path name maj mn : String)
  | clusterVersion (path fname cluster maj mn : String)
  | unknownCluster (cluster fname : String)
  | noEntry (member cluster : String)
  | declares (row : ClusterRow) (implied : Version)
  | noCluster (name : String)
  | severalClusters (name : String) (owning : List String)
  | guard (failure : GuardFailure)
deriving DecidableEq

/-- The message handed to `fail`. -/
def TableFailure.message : TableFailure → String
  | columns path lineno ncols got => path ++ ":" ++ toString lineno ++ ": expected " ++
      toString ncols ++ " columns, got " ++ toString got
  | apiVersion path name maj mn => path ++ ": non-numeric version for " ++ name ++ " (" ++ maj ++
      "," ++ mn ++ ")"
  | clusterVersion path fname cluster maj mn => path ++ ": non-numeric version for " ++ fname ++
      "/" ++ cluster ++ " (" ++ maj ++ "," ++ mn ++ ")"
  | unknownCluster cluster fname => "cluster '" ++ cluster ++ "' (in " ++ fname ++
      ") does not exist in the registry"
  | noEntry member cluster => "registry member '" ++ member ++ "' of cluster '" ++ cluster ++
      "' has no api_versions entry"
  | declares row implied => row.fname ++ ": cluster '" ++ row.cluster ++ "' declares " ++
      toString row.maj ++ "." ++ toString row.mn ++ " but members imply " ++
      toString (ofLex implied).1 ++ "." ++ toString (ofLex implied).2 ++
      " (declared version must equal the max member version)"
  | noCluster name => "versioned entity '" ++ name ++
      "' is not a member of any cluster in the registry"
  | severalClusters name owning => "versioned entity '" ++ name ++
      "' is a member of multiple clusters: " ++ ", ".intercalate owning
  | guard failure => failure.message

/-- An exception that ends the run. -/
inductive RunError
  | fileNotFound (path : String)
  | key (e : KeyError)
  | zeroDivision
deriving DecidableEq

/-! ## The rows -/

/-- What the tool uses of Python's `int`. -/
structure IntRules where
  digits : DigitClass
  /-- `sys.get_int_max_str_digits()` -/
  maxDigits : ℕ

/-- `int`, of a text without white space around it. -/
def IntRules.int (ints : IntRules) (part : String) : Option ℤ :=
  signed ints.digits ints.maxDigits part.toList

/-- `(int(maj), int(mn))` -/
def IntRules.pair (ints : IntRules) (maj mn : String) : Option (ℤ × ℤ) :=
  (ints.int maj).bind fun maj => (ints.int mn).map fun mn => (maj, mn)

/-- A loop over `rs` whose rounds add something, do nothing or hand something to `fail`. -/
def rounds {ρ α ε : Type*} (round : ρ → Except ε (Option α)) : List ρ → List α × List ε
  | [] => ([], [])
  | r :: rs =>
    let (added, failures) := rounds round rs
    match round r with
    | .ok (some a) => (a :: added, failures)
    | .ok none => (added, failures)
    | .error e => (added, e :: failures)

variable (cls : CharClass) (ints : IntRules)

/-- `[p.strip() for p in line.split(",")]` -/
def columns (line : List Char) : List String :=
  (line.splitOn ',').map fun p => String.ofList (strip cls p)

/-- The round of `parse_csv` for a line. -/
def csvRow (path : String) (ncols lineno : ℕ) (line : List Char) :
    Except TableFailure (Option (Vector String ncols)) :=
  let line := strip cls line
  if line = [] ∨ line.head? = some '#' then .ok none
  else if h : (columns cls line).length = ncols then
    .ok (some ⟨(columns cls line).toArray, h⟩)
  else .error (.columns path lineno ncols (columns cls line).length)

/-- `parse_csv` -/
def parseCsv (path : String) (ncols : ℕ) (text : List Char) :
    List (Vector String ncols) × List TableFailure :=
  rounds (fun line => csvRow cls path ncols line.2 line.1) ((readlines text).zipIdx 1)

/-- The round of `load_api_versions` for a row. -/
def apiEntry (path : String) (row : Vector String 3) :
    Except TableFailure (Option (String × Version)) :=
  if row[0] = "实体" then .ok none
  else
    match ints.pair row[1] row[2] with
    | some v => .ok (some (row[0], toLex v))
    | none => .error (.apiVersion path row[0] row[1] row[2])

/-- `load_api_versions`: the dictionary, and the failures. -/
def loadApiVersions (path : String) (text : List Char) :
    List (String × Version) × List TableFailure :=
  let (rows, failures) := parseCsv cls path 3 text
  let (entries, others) := rounds (apiEntry ints path) rows
  (assignAll entries, failures ++ others)

/-- The round of `load_clusters` for a row. -/
def clusterEntry (path : String) (row : Vector String 4) :
    Except TableFailure (Option ClusterRow) :=
  if row[0] = "文件" then .ok none
  else
    match ints.pair row[2] row[3] with
    | some v => .ok (some ⟨row[0], row[1], v.1, v.2⟩)
    | none => .error (.clusterVersion path row[0] row[1] row[2] row[3])

/-- `load_clusters` -/
def loadClusters (path : String) (text : List Char) : List ClusterRow × List TableFailure :=
  let (rows, failures) := parseCsv cls path 4 text
  let (out, others) := rounds (clusterEntry ints path) rows
  (out, failures ++ others)

/-! ## The checks -/

section
variable (entities : List (String × Version))

/-- The loop over the members of a cluster, from the version implied so far. -/
def impliedVersion (cluster : String) : List String → Version → Version × List TableFailure
  | [], implied => (implied, [])
  | member :: members, implied =>
    match entities.lookup member with
    | none =>
      let (greatest, failures) := impliedVersion cluster members implied
      (greatest, .noEntry member cluster :: failures)
    | some v => impliedVersion cluster members (if implied < v then v else implied)

/-- The round of `check_cluster_versions` for a row. -/
def checkClusterVersion (row : ClusterRow) : List TableFailure :=
  match clusterMembers row.cluster with
  | none => [.unknownCluster row.cluster row.fname]
  | some members =>
    let (implied, failures) := impliedVersion entities row.cluster members (toLex (0, 0))
    failures ++ if row.version = implied then [] else [.declares row implied]

/-- `check_cluster_versions` -/
def checkClusterVersions (rows : List ClusterRow) : List TableFailure :=
  rows.flatMap (checkClusterVersion entities)

/-- The clusters a name is a member of. -/
def owningClusters (name : String) : List String :=
  (registry.filter fun entry => entry.2.contains name).map Prod.fst

/-- The round of `check_coverage` for a name. -/
def checkEntity (name : String) : Option TableFailure :=
  match owningClusters name with
  | [] => some (.noCluster name)
  | [_] => none
  | owning => some (.severalClusters name owning)

/-- `check_coverage` -/
def checkCoverage : List TableFailure :=
  entities.filterMap fun entity => checkEntity entity.1

end

/-- `open(path)`, where `files` is the text of each path that is a file. -/
def openFile (files : String → Option (List Char)) (path : String) :
    Except RunError (List Char) :=
  match files path with
  | some text => .ok text
  | none => .error (.fileNotFound path)

/-- `run_check`: what `FAILURES` holds at the end. The command passes if it is empty. -/
def runCheck (repoRoot : String) (files : String → Option (List Char)) (api clusters : String)
    (requireGuards : Bool) : Except RunError (List TableFailure) := do
  let (entities, apiFailures) := loadApiVersions cls ints api (← openFile files api)
  let (rows, clusterFailures) := loadClusters cls ints clusters (← openFile files clusters)
  let guardFailures ←
    if requireGuards then (checkGuards cls repoRoot files rows).mapError RunError.key else .ok []
  return apiFailures ++ clusterFailures ++ checkClusterVersions entities rows ++
    checkCoverage entities ++ guardFailures.map .guard

/-! ## What the loops collect -/

section
variable {ρ α ε : Type*} {round : ρ → Except ε (Option α)}

/-- What a round adds. -/
def addedBy : Except ε (Option α) → Option α
  | .ok added => added
  | .error _ => none

theorem rounds_fst (rs : List ρ) :
    (rounds round rs).1 = rs.filterMap fun r => addedBy (round r) := by
  induction rs with
  | nil => rfl
  | cons r rs ih =>
    rw [rounds, List.filterMap_cons, ← ih]
    cases round r with
    | error e => rfl
    | ok added => cases added <;> rfl

/-- Nothing fails if no round does. -/
theorem rounds_snd_eq_nil_iff (rs : List ρ) :
    (rounds round rs).2 = [] ↔ ∀ r ∈ rs, ∃ added, round r = .ok added := by
  induction rs with
  | nil => simp [rounds]
  | cons r rs ih =>
    rw [rounds, List.forall_mem_cons, ← ih]
    cases round r with
    | error e => simp
    | ok added => cases added <;> simp

end

/-! ## The lines of a table -/

variable {cls ints}

/-- The line is blank or a comment. -/
def Ignored (cls : CharClass) (line : List Char) : Prop :=
  strip cls line = [] ∨ (strip cls line).head? = some '#'

/-- The line is a row: pieces without a comma, with commas between them, and these are the pieces
without the white space around them. -/
structure HasCells (cls : CharClass) (line : List Char) (cells : List String) : Prop where
  not_ignored : ¬Ignored cls line
  split : ∃ pieces : List (List Char), pieces ≠ [] ∧ (∀ piece ∈ pieces, ',' ∉ piece) ∧
    strip cls line = [','].intercalate pieces ∧
    cells = pieces.map fun piece => String.ofList (strip cls piece)

/-- The row of an entity with a version. -/
def GivesVersion (cls : CharClass) (ints : IntRules) (line : List Char) (name : String)
    (v : Version) : Prop :=
  ∃ maj mn, HasCells cls line [name, maj, mn] ∧ name ≠ "实体" ∧
    ints.int maj = some (ofLex v).1 ∧ ints.int mn = some (ofLex v).2

/-- The row of a cluster in a file. -/
def GivesRow (cls : CharClass) (ints : IntRules) (line : List Char) (row : ClusterRow) : Prop :=
  ∃ maj mn, HasCells cls line [row.fname, row.cluster, maj, mn] ∧ row.fname ≠ "文件" ∧
    ints.int maj = some row.maj ∧ ints.int mn = some row.mn

/-- The pieces of a splitting do not have the separator. -/
theorem not_mem_of_mem_splitOn {sep : Char} : ∀ {cs piece : List Char},
    piece ∈ cs.splitOn sep → sep ∉ piece
  | [], piece, h => by
    rw [List.splitOn_nil, List.mem_singleton] at h
    rw [h]
    exact List.not_mem_nil
  | c :: cs, piece, h => by
    rw [List.splitOn_cons_eq_if_modifyHead] at h
    split_ifs at h with hc
    · rcases List.mem_cons.1 h with rfl | h
      · exact List.not_mem_nil
      · exact not_mem_of_mem_splitOn h
    · obtain ⟨first, others, hsplit⟩ := List.exists_cons_of_ne_nil (List.splitOn_ne_nil sep cs)
      rw [hsplit, List.modifyHead_cons] at h
      rcases List.mem_cons.1 h with rfl | h
      · refine List.not_mem_cons_of_ne_of_not_mem (fun heq => hc (beq_iff_eq.2 heq.symm)) ?_
        exact not_mem_of_mem_splitOn (hsplit ▸ List.mem_cons_self)
      · exact not_mem_of_mem_splitOn (hsplit ▸ List.mem_cons_of_mem _ h)

theorem hasCells_iff {line : List Char} {cells : List String} :
    HasCells cls line cells ↔ ¬Ignored cls line ∧ columns cls (strip cls line) = cells := by
  constructor
  · rintro ⟨hshown, pieces, hne, hcomma, hline, rfl⟩
    refine ⟨hshown, ?_⟩
    rw [columns, hline, List.splitOn_intercalate ',' hcomma hne]
  · rintro ⟨hshown, rfl⟩
    refine ⟨hshown, (strip cls line).splitOn ',', List.splitOn_ne_nil _ _, ?_, ?_, rfl⟩
    · exact fun piece hmem => not_mem_of_mem_splitOn hmem
    · exact (List.intercalate_splitOn ',').symm

/-- The row of a line, if it is one with so many columns. -/
def lineRow (cls : CharClass) (ncols : ℕ) (line : List Char) : Option (Vector String ncols) :=
  addedBy (csvRow cls "" ncols 0 line)

section
variable {path : String} {ncols lineno : ℕ} {line text : List Char}

theorem csvRow_eq_ok_none_iff : csvRow cls path ncols lineno line = .ok none ↔
    Ignored cls line := by
  unfold csvRow Ignored
  dsimp only
  split_ifs with hignored hcols
  · exact iff_of_true rfl hignored
  · exact iff_of_false (by simp) hignored
  · exact iff_of_false (by simp) hignored

theorem csvRow_eq_ok_some_iff {row : Vector String ncols} :
    csvRow cls path ncols lineno line = .ok (some row) ↔ HasCells cls line row.toList := by
  rw [hasCells_iff]
  unfold csvRow Ignored
  dsimp only
  split_ifs with hignored hcols
  · exact iff_of_false (by simp) fun h => h.1 hignored
  · simp only [hignored, not_false_eq_true, true_and, Except.ok.injEq, Option.some.injEq]
    constructor
    · rintro rfl
      rfl
    · intro h
      exact Vector.toList_inj.1 h
  · refine iff_of_false (by simp) fun h => hcols ?_
    rw [h.2, Vector.length_toList]

/-- Where the line stands matters for the failures alone. -/
theorem addedBy_csvRow : addedBy (csvRow cls path ncols lineno line) = lineRow cls ncols line := by
  unfold lineRow csvRow
  dsimp only
  split_ifs <;> rfl

theorem lineRow_eq_some_iff {row : Vector String ncols} :
    lineRow cls ncols line = some row ↔ HasCells cls line row.toList := by
  refine Iff.trans ?_ (csvRow_eq_ok_some_iff : csvRow cls "" ncols 0 line = _ ↔ _)
  rw [lineRow]
  cases csvRow cls "" ncols 0 line <;> simp [addedBy]

/-- A line is accepted if it is ignored or has so many columns. -/
theorem exists_csvRow_eq_ok_iff : (∃ added, csvRow cls path ncols lineno line = .ok added) ↔
    Ignored cls line ∨ ∃ row : Vector String ncols, HasCells cls line row.toList := by
  rw [Option.exists, csvRow_eq_ok_none_iff]
  exact or_congr_right (exists_congr fun row => csvRow_eq_ok_some_iff)

variable (cls path ncols text)

/-- The rows, from the top. -/
theorem parseCsv_fst :
    (parseCsv cls path ncols text).1 = (readlines text).filterMap (lineRow cls ncols) := by
  rw [parseCsv, rounds_fst]
  simp only [addedBy_csvRow]
  conv_rhs => rw [← List.zipIdx_map_fst 1 (readlines text), List.filterMap_map]
  rfl

theorem parseCsv_snd_eq_nil_iff : (parseCsv cls path ncols text).2 = [] ↔
    ∀ line ∈ readlines text,
      Ignored cls line ∨ ∃ row : Vector String ncols, HasCells cls line row.toList := by
  rw [parseCsv, rounds_snd_eq_nil_iff]
  simp only [exists_csvRow_eq_ok_iff]
  have hlines := List.zipIdx_map_fst 1 (readlines text)
  constructor
  · intro h line hline
    rw [← hlines] at hline
    obtain ⟨numbered, hnumbered, rfl⟩ := List.mem_map.1 hline
    exact h numbered hnumbered
  · exact fun h numbered hnumbered => h _ (hlines ▸ List.mem_map_of_mem hnumbered)

variable {ncols} {α : Type*} (entry : Vector String ncols → Except TableFailure (Option α))

/-- What a table is read as: one entry after the other. -/
theorem rounds_parseCsv_fst : (rounds entry (parseCsv cls path ncols text).1).1 =
    (readlines text).filterMap fun line =>
      (lineRow cls ncols line).bind fun row => addedBy (entry row) := by
  rw [rounds_fst, parseCsv_fst, List.filterMap_filterMap]

/-- A table has no failure if every line is ignored or an accepted row. -/
theorem failures_eq_nil_iff : (parseCsv cls path ncols text).2 ++
      (rounds entry (parseCsv cls path ncols text).1).2 = [] ↔
    ∀ line ∈ readlines text, Ignored cls line ∨ ∃ row : Vector String ncols,
      HasCells cls line row.toList ∧ ∃ added, entry row = .ok added := by
  rw [List.append_eq_nil_iff, parseCsv_snd_eq_nil_iff, rounds_snd_eq_nil_iff, parseCsv_fst]
  constructor
  · rintro ⟨hrow, hentry⟩ line hline
    refine (hrow line hline).imp_right ?_
    rintro ⟨row, hcells⟩
    exact ⟨row, hcells, hentry row (List.mem_filterMap.2 ⟨line, hline,
      lineRow_eq_some_iff.2 hcells⟩)⟩
  · intro h
    refine ⟨fun line hline => (h line hline).imp_right fun ⟨row, hcells, _⟩ => ⟨row, hcells⟩, ?_⟩
    intro row hrow
    obtain ⟨line, hline, hfound⟩ := List.mem_filterMap.1 hrow
    have hcells := lineRow_eq_some_iff.1 hfound
    rcases h line hline with hignored | ⟨row', hcells', hentry⟩
    · exact absurd hignored hcells.not_ignored
    · have heq : row' = row := Vector.toList_inj.1
        ((hasCells_iff.1 hcells').2.symm.trans (hasCells_iff.1 hcells).2)
      rwa [heq] at hentry

end

/-! ## The two tables -/

theorem exists_vector_three {P : Vector String 3 → Prop} :
    (∃ row, P row) ↔ ∃ a b c, P #v[a, b, c] := by
  constructor
  · rintro ⟨⟨⟨cells⟩, hcells⟩, h⟩
    match cells, hcells, h with
    | [a, b, c], _, h => exact ⟨a, b, c, h⟩
  · rintro ⟨a, b, c, h⟩
    exact ⟨_, h⟩

theorem exists_vector_four {P : Vector String 4 → Prop} :
    (∃ row, P row) ↔ ∃ a b c d, P #v[a, b, c, d] := by
  constructor
  · rintro ⟨⟨⟨cells⟩, hcells⟩, h⟩
    match cells, hcells, h with
    | [a, b, c, d], _, h => exact ⟨a, b, c, d, h⟩
  · rintro ⟨a, b, c, d, h⟩
    exact ⟨_, h⟩

theorem IntRules.pair_eq_some_iff {maj mn : String} {v : ℤ × ℤ} :
    ints.pair maj mn = some v ↔ ints.int maj = some v.1 ∧ ints.int mn = some v.2 := by
  unfold IntRules.pair
  cases ints.int maj <;> cases ints.int mn <;> simp [Prod.ext_iff]

section
variable {path : String} {line text : List Char}

/-- The entry of a row of the version table. -/
theorem apiEntry_eq_ok_some_iff {row : Vector String 3} {name : String} {v : Version} :
    addedBy (apiEntry ints path row) = some (name, v) ↔
      row[0] = name ∧ name ≠ "实体" ∧ ints.pair row[1] row[2] = some (ofLex v) := by
  unfold apiEntry
  split_ifs with hheader
  · exact iff_of_false (by simp [addedBy]) fun h => h.2.1 (h.1 ▸ hheader)
  · cases ints.pair row[1] row[2] with
    | none => simp [addedBy]
    | some found =>
      simp only [addedBy, Option.some.injEq, Prod.mk.injEq]
      constructor
      · rintro ⟨rfl, rfl⟩
        exact ⟨rfl, hheader, rfl⟩
      · rintro ⟨hname, -, rfl⟩
        exact ⟨hname, rfl⟩

/-- A row of the version table is accepted if it is the header or has a version. -/
theorem exists_apiEntry_eq_ok_iff {row : Vector String 3} :
    (∃ added, apiEntry ints path row = .ok added) ↔
      row[0] = "实体" ∨ ∃ v : Version, row[0] ≠ "实体" ∧ ints.pair row[1] row[2] = some (ofLex v) := by
  unfold apiEntry
  split_ifs with hheader
  · exact iff_of_true ⟨none, rfl⟩ (Or.inl hheader)
  · cases ints.pair row[1] row[2] with
    | none => simp [hheader]
    | some found => exact iff_of_true ⟨_, rfl⟩ (Or.inr ⟨toLex found, hheader, rfl⟩)

theorem clusterEntry_eq_ok_some_iff {cells : Vector String 4} {row : ClusterRow} :
    addedBy (clusterEntry ints path cells) = some row ↔
      cells[0] = row.fname ∧ row.fname ≠ "文件" ∧ cells[1] = row.cluster ∧
        ints.pair cells[2] cells[3] = some (row.maj, row.mn) := by
  unfold clusterEntry
  split_ifs with hheader
  · exact iff_of_false (by simp [addedBy]) fun h => h.2.1 (h.1 ▸ hheader)
  · cases ints.pair cells[2] cells[3] with
    | none => simp [addedBy]
    | some found =>
      simp only [addedBy, Option.some.injEq]
      constructor
      · rintro rfl
        exact ⟨rfl, hheader, rfl, rfl⟩
      · rintro ⟨hfname, -, hcluster, rfl⟩
        rw [hfname, hcluster]

theorem exists_clusterEntry_eq_ok_iff {cells : Vector String 4} :
    (∃ added, clusterEntry ints path cells = .ok added) ↔
      cells[0] = "文件" ∨ ∃ v, cells[0] ≠ "文件" ∧ ints.pair cells[2] cells[3] = some v := by
  unfold clusterEntry
  split_ifs with hheader
  · exact iff_of_true ⟨none, rfl⟩ (Or.inl hheader)
  · cases ints.pair cells[2] cells[3] with
    | none => simp [hheader]
    | some found => exact iff_of_true ⟨_, rfl⟩ (Or.inr ⟨found, hheader, rfl⟩)

theorem apiLine_eq_some_iff {name : String} {v : Version} :
    ((lineRow cls 3 line).bind fun row => addedBy (apiEntry ints path row)) = some (name, v) ↔
      GivesVersion cls ints line name v := by
  rw [Option.bind_eq_some_iff]
  simp only [lineRow_eq_some_iff, apiEntry_eq_ok_some_iff, IntRules.pair_eq_some_iff]
  rw [exists_vector_three]
  constructor
  · rintro ⟨_, maj, mn, hcells, rfl, hname, hmaj, hmn⟩
    exact ⟨maj, mn, hcells, hname, hmaj, hmn⟩
  · rintro ⟨maj, mn, hcells, hname, hmaj, hmn⟩
    exact ⟨name, maj, mn, hcells, rfl, hname, hmaj, hmn⟩

theorem clusterLine_eq_some_iff {row : ClusterRow} :
    ((lineRow cls 4 line).bind fun cells => addedBy (clusterEntry ints path cells)) = some row ↔
      GivesRow cls ints line row := by
  rw [Option.bind_eq_some_iff]
  simp only [lineRow_eq_some_iff, clusterEntry_eq_ok_some_iff, IntRules.pair_eq_some_iff]
  rw [exists_vector_four]
  constructor
  · rintro ⟨fname, cluster, maj, mn, hcells, hfname, hheader, hcluster, hmaj, hmn⟩
    exact ⟨maj, mn, hfname ▸ hcluster ▸ hcells, hheader, hmaj, hmn⟩
  · rintro ⟨maj, mn, hcells, hheader, hmaj, hmn⟩
    exact ⟨row.fname, row.cluster, maj, mn, hcells, rfl, hheader, rfl, hmaj, hmn⟩

/-- A line the version table may have. -/
def ApiLine (cls : CharClass) (ints : IntRules) (line : List Char) : Prop :=
  Ignored cls line ∨ (∃ maj mn, HasCells cls line ["实体", maj, mn]) ∨
    ∃ name v, GivesVersion cls ints line name v

/-- A line the cluster table may have. -/
def ClusterLine (cls : CharClass) (ints : IntRules) (line : List Char) : Prop :=
  Ignored cls line ∨ (∃ cluster maj mn, HasCells cls line ["文件", cluster, maj, mn]) ∨
    ∃ row, GivesRow cls ints line row

variable (path text)

theorem loadApiVersions_snd_eq_nil_iff : (loadApiVersions cls ints path text).2 = [] ↔
    ∀ line ∈ readlines text, ApiLine cls ints line := by
  refine (failures_eq_nil_iff cls path text (apiEntry ints path)).trans ?_
  refine forall₂_congr fun line _ => or_congr_right ?_
  simp only [exists_apiEntry_eq_ok_iff, IntRules.pair_eq_some_iff]
  rw [exists_vector_three]
  constructor
  · rintro ⟨name, maj, mn, hcells, rfl | ⟨v, hname, hmaj, hmn⟩⟩
    · exact Or.inl ⟨maj, mn, hcells⟩
    · exact Or.inr ⟨name, v, maj, mn, hcells, hname, hmaj, hmn⟩
  · rintro (⟨maj, mn, hcells⟩ | ⟨name, v, maj, mn, hcells, hname, hmaj, hmn⟩)
    · exact ⟨"实体", maj, mn, hcells, Or.inl rfl⟩
    · exact ⟨name, maj, mn, hcells, Or.inr ⟨v, hname, hmaj, hmn⟩⟩

theorem loadClusters_snd_eq_nil_iff : (loadClusters cls ints path text).2 = [] ↔
    ∀ line ∈ readlines text, ClusterLine cls ints line := by
  refine (failures_eq_nil_iff cls path text (clusterEntry ints path)).trans ?_
  refine forall₂_congr fun line _ => or_congr_right ?_
  simp only [exists_clusterEntry_eq_ok_iff, IntRules.pair_eq_some_iff]
  rw [exists_vector_four]
  constructor
  · rintro ⟨fname, cluster, maj, mn, hcells, rfl | ⟨v, hheader, hmaj, hmn⟩⟩
    · exact Or.inl ⟨cluster, maj, mn, hcells⟩
    · exact Or.inr ⟨⟨fname, cluster, v.1, v.2⟩, maj, mn, hcells, hheader, hmaj, hmn⟩
  · rintro (⟨cluster, maj, mn, hcells⟩ | ⟨row, maj, mn, hcells, hheader, hmaj, hmn⟩)
    · exact ⟨"文件", cluster, maj, mn, hcells, Or.inl rfl⟩
    · exact ⟨row.fname, row.cluster, maj, mn, hcells,
        Or.inr ⟨(row.maj, row.mn), hheader, hmaj, hmn⟩⟩

/-- The dictionary is made of the entries of the lines. -/
theorem loadApiVersions_fst : (loadApiVersions cls ints path text).1 =
    assignAll ((readlines text).filterMap fun line =>
      (lineRow cls 3 line).bind fun row => addedBy (apiEntry ints path row)) :=
  congrArg assignAll (rounds_parseCsv_fst cls path text (apiEntry ints path))

theorem loadClusters_fst : (loadClusters cls ints path text).1 =
    (readlines text).filterMap fun line =>
      (lineRow cls 4 line).bind fun cells => addedBy (clusterEntry ints path cells) :=
  rounds_parseCsv_fst cls path text (clusterEntry ints path)

/-- The table gives the entity the version: the last of its rows does. -/
def VersionIn (cls : CharClass) (ints : IntRules) (text : List Char) (name : String)
    (v : Version) : Prop :=
  ∃ i : ℕ, (∃ line ∈ (readlines text)[i]?, GivesVersion cls ints line name v) ∧
    ∀ j > i, ∀ line ∈ (readlines text)[j]?, ∀ v', ¬GivesVersion cls ints line name v'

theorem lookup_loadApiVersions_eq_some_iff {name : String} {v : Version} :
    (loadApiVersions cls ints path text).1.lookup name = some v ↔
      VersionIn cls ints text name v := by
  rw [loadApiVersions_fst, lookup_assignAll_filterMap]
  refine exists_congr fun i => ?_
  have hbind : ∀ (j : ℕ) (v' : Version), ((readlines text)[j]?.bind fun line =>
      (lineRow cls 3 line).bind fun row => addedBy (apiEntry ints path row)) = some (name, v') ↔
        ∃ line ∈ (readlines text)[j]?, GivesVersion cls ints line name v' := by
    intro j v'
    rw [Option.bind_eq_some_iff]
    exact exists_congr fun line => and_congr_right fun _ => apiLine_eq_some_iff
  constructor
  · rintro ⟨here, last⟩
    exact ⟨(hbind i v).1 here, fun j hj line hline v' h =>
      last j hj v' ((hbind j v').2 ⟨line, hline, h⟩)⟩
  · rintro ⟨here, last⟩
    refine ⟨(hbind i v).2 here, fun j hj v' h => ?_⟩
    obtain ⟨line, hline, hgives⟩ := (hbind j v').1 h
    exact last j hj line hline v' hgives

theorem mem_loadClusters_iff {row : ClusterRow} : row ∈ (loadClusters cls ints path text).1 ↔
    ∃ line ∈ readlines text, GivesRow cls ints line row := by
  rw [loadClusters_fst, List.mem_filterMap]
  exact exists_congr fun line => and_congr_right fun _ => clusterLine_eq_some_iff

end

/-! ## The checks that pass -/

/-- The greater of two may stand for both. -/
theorem isGreatest_insert_insert {α : Type*} [LinearOrder α] {a b c : α} {s : Set α}
    (h : IsGreatest (insert (if a < b then b else a) s) c) :
    IsGreatest (insert a (insert b s)) c := by
  rw [← max_def_lt] at h
  obtain ⟨hmem, hub⟩ := h
  rw [upperBounds_insert] at hub
  obtain ⟨hmax, hs⟩ := hub
  obtain ⟨ha, hb⟩ := max_le_iff.1 (Set.mem_Ici.1 hmax)
  refine ⟨?_, ?_⟩
  · rcases hmem with rfl | hmem
    · rcases max_choice a b with h | h
      · exact Or.inl h
      · exact Or.inr (Or.inl h)
    · exact Or.inr (Or.inr hmem)
  · rw [upperBounds_insert, upperBounds_insert]
    exact ⟨ha, hb, hs⟩

/-- The versions of the members of a cluster. -/
def memberVersions (entities : List (String × Version)) (members : List String) : Set Version :=
  {v | ∃ member ∈ members, entities.lookup member = some v}

theorem memberVersions_cons (entities : List (String × Version)) (member : String)
    (members : List String) : memberVersions entities (member :: members) =
      {v | entities.lookup member = some v} ∪ memberVersions entities members := by
  ext v
  simp [memberVersions]

/-- The loop ends with the greatest of the members' versions and the one it began with. -/
theorem isGreatest_impliedVersion (entities : List (String × Version)) (cluster : String) :
    ∀ (members : List String) (implied : Version),
      IsGreatest (insert implied (memberVersions entities members))
        (impliedVersion entities cluster members implied).1
  | [], implied => by simp [impliedVersion, memberVersions]
  | member :: members, implied => by
    rw [impliedVersion, memberVersions_cons]
    cases entities.lookup member with
    | none => simpa using isGreatest_impliedVersion entities cluster members implied
    | some v =>
      have hset : {v' | some v = some v'} ∪ memberVersions entities members =
          insert v (memberVersions entities members) := by
        ext v'
        simp [eq_comm]
      rw [hset]
      exact isGreatest_insert_insert (isGreatest_impliedVersion entities cluster members _)

theorem impliedVersion_snd_eq_nil_iff (entities : List (String × Version)) (cluster : String) :
    ∀ (members : List String) (implied : Version),
      (impliedVersion entities cluster members implied).2 = [] ↔
        ∀ member ∈ members, ∃ v, entities.lookup member = some v
  | [], implied => by simp [impliedVersion]
  | member :: members, implied => by
    rw [impliedVersion, List.forall_mem_cons]
    cases entities.lookup member with
    | none => simp
    | some v => simpa using impliedVersion_snd_eq_nil_iff entities cluster members _

/-- A row passes if its cluster is registered, every member has a version, and the declared one is
the greatest. -/
theorem checkClusterVersion_eq_nil_iff {entities : List (String × Version)} {row : ClusterRow} :
    checkClusterVersion entities row = [] ↔ ∃ members, clusterMembers row.cluster = some members ∧
      (∀ member ∈ members, ∃ v, entities.lookup member = some v) ∧
      IsGreatest (insert (toLex (0, 0)) (memberVersions entities members)) row.version := by
  unfold checkClusterVersion
  cases hreg : clusterMembers row.cluster with
  | none => simp
  | some members =>
    have hgreatest := isGreatest_impliedVersion entities row.cluster members (toLex (0, 0))
    have hversion : row.version = (impliedVersion entities row.cluster members (toLex (0, 0))).1 ↔
        IsGreatest (insert (toLex (0, 0)) (memberVersions entities members)) row.version :=
      ⟨fun h => h ▸ hgreatest, fun h => h.unique hgreatest⟩
    simp only [Option.some.injEq, exists_eq_left', List.append_eq_nil_iff,
      impliedVersion_snd_eq_nil_iff, ← hversion]
    split_ifs with h <;> simp [h]

theorem registry_nodup : registry.Nodup := by
  decide +kernel

/-- A name has one owner if exactly one cluster has it. -/
theorem exists_owningClusters_eq_singleton_iff {name : String} :
    (∃ owner, owningClusters name = [owner]) ↔
      ∃! entry, entry ∈ registry ∧ name ∈ entry.2 := by
  have hmem : ∀ entry : String × List String,
      entry ∈ (registry.filter fun entry => entry.2.contains name) ↔
        entry ∈ registry ∧ name ∈ entry.2 := by
    intro entry
    rw [List.mem_filter, List.contains_iff_mem]
  simp only [owningClusters, List.map_eq_singleton_iff, ← hmem]
  constructor
  · rintro ⟨owner, entry, hentry, rfl⟩
    rw [hentry]
    exact ⟨entry, List.mem_singleton_self entry, fun other => List.mem_singleton.1⟩
  · rintro ⟨entry, hentry, hunique⟩
    refine ⟨entry.1, entry, List.perm_singleton.1 ?_, rfl⟩
    refine (List.perm_ext_iff_of_nodup (registry_nodup.filter _) (List.nodup_singleton _)).2 ?_
    exact fun other => ⟨fun h => List.mem_singleton.2 (hunique other h),
      fun h => List.mem_singleton.1 h ▸ hentry⟩

theorem checkEntity_eq_none_iff {name : String} :
    checkEntity name = none ↔ ∃! entry, entry ∈ registry ∧ name ∈ entry.2 := by
  rw [← exists_owningClusters_eq_singleton_iff]
  unfold checkEntity
  split
  · rename_i hnil
    simp [hnil]
  · rename_i owner hone
    simp [hone]
  · rename_i hone
    exact iff_of_false (Option.some_ne_none _) fun ⟨owner, howner⟩ => hone owner howner

/-- The coverage check passes if every entity is a member of exactly one cluster. -/
theorem checkCoverage_eq_nil_iff {entities : List (String × Version)} :
    checkCoverage entities = [] ↔ ∀ name v, entities.lookup name = some v →
      ∃! entry, entry ∈ registry ∧ name ∈ entry.2 := by
  have hkey : ∀ name, (∃ v, entities.lookup name = some v) ↔
      ∃ entity ∈ entities, entity.1 = name := by
    intro name
    rw [← Option.isSome_iff_exists, List.lookup_isSome_iff]
    exact exists_congr fun entity => and_congr_right fun _ => beq_iff_eq.trans eq_comm
  rw [checkCoverage, List.filterMap_eq_nil_iff]
  constructor
  · intro h name v hlookup
    obtain ⟨entity, hentity, rfl⟩ := (hkey name).1 ⟨v, hlookup⟩
    exact checkEntity_eq_none_iff.1 (h entity hentity)
  · intro h entity hentity
    obtain ⟨v, hlookup⟩ := (hkey entity.1).2 ⟨entity, hentity, rfl⟩
    exact checkEntity_eq_none_iff.2 (h _ v hlookup)

/-! ## The command -/

/-- The two tables agree with each other and with the registry. -/
structure TablesAgree (cls : CharClass) (ints : IntRules) (apiText clustersText : List Char) :
    Prop where
  api_lines : ∀ line ∈ readlines apiText, ApiLine cls ints line
  cluster_lines : ∀ line ∈ readlines clustersText, ClusterLine cls ints line
  /-- A declared version is the greatest version of the members of the cluster. -/
  declared : ∀ line ∈ readlines clustersText, ∀ row, GivesRow cls ints line row →
    ∃ members, clusterMembers row.cluster = some members ∧
      (∀ member ∈ members, ∃ v, VersionIn cls ints apiText member v) ∧
      IsGreatest (insert (toLex (0, 0))
        {v | ∃ member ∈ members, VersionIn cls ints apiText member v}) row.version
  /-- An entity is a member of exactly one cluster. -/
  covered : ∀ name v, VersionIn cls ints apiText name v →
    ∃! entry, entry ∈ registry ∧ name ∈ entry.2

/-- The rows pass the guard checker. -/
def GuardsPass (cls : CharClass) (repoRoot : String) (files : String → Option (List Char))
    (row : ClusterRow) : Prop :=
  ∃ text, files (resolveFilePath repoRoot row.fname) = some text ∧
    ∃ start stop, Passes cls row text start stop

section
variable {repoRoot : String} {files : String → Option (List Char)}

theorem checkRow_eq_ok_nil_iff {row : ClusterRow} :
    checkRow cls row repoRoot files = .ok [] ↔ GuardsPass cls repoRoot files row := by
  unfold checkRow GuardsPass
  cases files (resolveFilePath repoRoot row.fname) with
  | none => simp
  | some text => simp [checkText_eq_ok_nil_iff]

/-- The loaded tables pass the first two checks if they agree. -/
theorem tablesAgree_iff (api clusters : String) {apiText clustersText : List Char} :
    TablesAgree cls ints apiText clustersText ↔
      (loadApiVersions cls ints api apiText).2 = [] ∧
      (loadClusters cls ints clusters clustersText).2 = [] ∧
      checkClusterVersions (loadApiVersions cls ints api apiText).1
        (loadClusters cls ints clusters clustersText).1 = [] ∧
      checkCoverage (loadApiVersions cls ints api apiText).1 = [] := by
  rw [loadApiVersions_snd_eq_nil_iff, loadClusters_snd_eq_nil_iff, checkClusterVersions,
    List.flatMap_eq_nil_iff, checkCoverage_eq_nil_iff]
  simp only [mem_loadClusters_iff, checkClusterVersion_eq_nil_iff, memberVersions,
    lookup_loadApiVersions_eq_some_iff]
  constructor
  · rintro ⟨hapi, hclusters, hdeclared, hcovered⟩
    exact ⟨hapi, hclusters, fun row ⟨line, hline, hrow⟩ => hdeclared line hline row hrow, hcovered⟩
  · rintro ⟨hapi, hclusters, hdeclared, hcovered⟩
    exact ⟨hapi, hclusters, fun line hline row hrow => hdeclared row ⟨line, hline, hrow⟩, hcovered⟩

theorem checkGuards_loadClusters_iff {clusters : String} {clustersText : List Char} :
    checkGuards cls repoRoot files (loadClusters cls ints clusters clustersText).1 = .ok [] ↔
      ∀ line ∈ readlines clustersText, ∀ row, GivesRow cls ints line row →
        GuardsPass cls repoRoot files row := by
  rw [checkGuards_eq_ok_nil_iff]
  simp only [checkRow_eq_ok_nil_iff, mem_loadClusters_iff]
  exact ⟨fun h line hline row hrow => h row ⟨line, hline, hrow⟩,
    fun h row ⟨line, hline, hrow⟩ => h line hline row hrow⟩

/-- The command passes if the tables agree and, with `--require-guards`, the rows pass the guard
checker. -/
theorem runCheck_eq_ok_nil_iff {api clusters : String} {requireGuards : Bool} :
    runCheck cls ints repoRoot files api clusters requireGuards = .ok [] ↔
      ∃ apiText clustersText, files api = some apiText ∧ files clusters = some clustersText ∧
        TablesAgree cls ints apiText clustersText ∧
        (requireGuards = true → ∀ line ∈ readlines clustersText, ∀ row,
          GivesRow cls ints line row → GuardsPass cls repoRoot files row) := by
  unfold runCheck openFile
  cases files api with
  | none => simp [bind, Except.bind]
  | some apiText =>
    cases files clusters with
    | none => simp [bind, Except.bind]
    | some clustersText =>
      simp only [Option.some.injEq, exists_and_left, exists_eq_left', bind, Except.bind, pure,
        Except.pure]
      rw [tablesAgree_iff api clusters, ← checkGuards_loadClusters_iff]
      cases requireGuards with
      | false => simp
      | true =>
        cases checkGuards cls repoRoot files (loadClusters cls ints clusters clustersText).1 with
        | error e => simp [Except.mapError]
        | ok failures => simp [Except.mapError, and_assoc]

-- a declared version that the members do not have, from the checker's own tests
example : runCheck .ascii ⟨.ascii, 4300⟩ "" (fun path =>
      if path = "api_versions.csv" then
        some ("实体,主版,次版\nwin_allocate,3,0\nwin_allocate_shared,3,0\n" ++
          "win_create_dynamic,3,0\n").toList
      else if path = "bad-version.csv" then
        some ("文件,簇名,生效主版,生效次版\n" ++
          "include/unimpi_vtable.h,win_alloc_shared,2,1\n").toList
      else none) "api_versions.csv" "bad-version.csv" false =
    .ok [.declares ⟨"include/unimpi_vtable.h", "win_alloc_shared", 2, 1⟩ (toLex (3, 0))] := by
  decide +kernel

end

end UniMPI
