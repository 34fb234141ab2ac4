import UniMPI.VersionTables

/-!
# The format of the tables

A table is written as a header and its rows, with commas between the cells of a row
and a newline after it. What is written so is read back by `load_api_versions` and
`load_clusters` without a failure (`tables_read_back`), whatever the entities, files
and clusters are called, as long as no name has a comma, a line break or white space
at an end, and no row looks like the header or a comment.
-/

namespace UniMPI

open Assignments LinePattern Numeral SourceText

variable {cls : CharClass} {ints : IntRules}

/-! ## Stripping -/

/-- No white space at the ends. -/
structure Trimmed (cls : CharClass) (cs : List Char) : Prop where
  head : ∀ c ∈ cs.head?, cls.isSpace c = false
  last : ∀ c ∈ cs.getLast?, cls.isSpace c = false

theorem dropWhile_of_head {p : Char → Bool} {cs : List Char} (h : ∀ c ∈ cs.head?, p c = false) :
    cs.dropWhile p = cs := by
  cases cs with
  | nil => rfl
  | cons c cs => exact List.dropWhile_cons_of_neg (by simp [h c rfl])

theorem strip_of_trimmed {cs : List Char} (h : Trimmed cls cs) : strip cls cs = cs := by
  rw [strip, dropWhile_of_head h.head, dropWhile_of_head, List.reverse_reverse]
  rw [List.head?_reverse]
  exact h.last

/-- White space at the end is stripped. -/
theorem strip_concat {cs : List Char} {c : Char} (h : Trimmed cls cs)
    (hc : cls.isSpace c = true) : strip cls (cs ++ [c]) = cs := by
  cases cs with
  | nil => simp [strip, hc]
  | cons d cs =>
    have hhead : ((d :: cs) ++ [c]).dropWhile cls.isSpace = (d :: cs) ++ [c] :=
      dropWhile_of_head (h.head)
    rw [strip, hhead, List.reverse_append, List.reverse_singleton, List.singleton_append,
      List.dropWhile_cons_of_pos hc, dropWhile_of_head, List.reverse_reverse]
    rw [List.head?_reverse]
    exact h.last

theorem trimmed_of_forall {cs : List Char} (h : ∀ c ∈ cs, cls.isSpace c = false) :
    Trimmed cls cs :=
  ⟨fun c hc => h c (List.mem_of_head? hc), fun c hc => h c (List.mem_of_getLast? hc)⟩

/-- Pieces without white space at the ends make such a text. -/
theorem trimmed_intercalate {sep : Char} (hsep : cls.isSpace sep = false) :
    ∀ {pieces : List (List Char)}, (∀ piece ∈ pieces, Trimmed cls piece) →
      Trimmed cls ([sep].intercalate pieces)
  | [], _ => ⟨by simp, by simp⟩
  | [piece], h => by
    rw [List.intercalate_singleton]
    exact h piece (List.mem_singleton_self piece)
  | piece :: piece' :: pieces, h => by
    obtain ⟨hpiece, hpieces⟩ := List.forall_mem_cons.1 h
    obtain ⟨-, hlast⟩ := trimmed_intercalate hsep hpieces
    rw [List.intercalate_cons_cons]
    generalize [sep].intercalate (piece' :: pieces) = rest at hlast
    constructor
    · intro c hc
      cases piece with
      | nil =>
        obtain rfl := Option.some.inj hc
        exact hsep
      | cons d piece => exact hpiece.head c hc
    · intro c hc
      rcases List.eq_nil_or_concat rest with rfl | ⟨rest, d, rfl⟩
      · rw [List.append_nil, Option.mem_def, List.getLast?_append] at hc
        obtain rfl := Option.some.inj hc
        exact hsep
      · rw [Option.mem_def, List.getLast?_append_of_ne_nil _ (by simp)] at hc
        exact hlast c hc

/-- The text between the separators comes from the pieces. -/
theorem mem_intercalate {sep c : Char} : ∀ {pieces : List (List Char)},
    c ∈ [sep].intercalate pieces → c = sep ∨ ∃ piece ∈ pieces, c ∈ piece
  | [], h => by simp at h
  | [piece], h => by
    rw [List.intercalate_singleton] at h
    exact Or.inr ⟨piece, List.mem_singleton_self piece, h⟩
  | piece :: piece' :: pieces, h => by
    rw [List.intercalate_cons_cons, List.append_assoc] at h
    rcases List.mem_append.1 h with h | h
    · exact Or.inr ⟨piece, List.mem_cons_self, h⟩
    · rcases List.mem_cons.1 h with rfl | h
      · exact Or.inl rfl
      · obtain hsep | ⟨other, hother, hc⟩ := mem_intercalate h
        · exact Or.inl hsep
        · exact Or.inr ⟨other, List.mem_cons_of_mem _ hother, hc⟩

/-! ## Writing -/

/-- A line of cells, without its newline. -/
def writeCells (cells : List String) : List Char :=
  [','].intercalate (cells.map String.toList)

/-- The text of a table. -/
def writeTable (rows : List (List String)) : List Char :=
  rows.flatMap fun cells => writeCells cells ++ ['\n']

def apiHeader : List String := ["实体", "主版", "次版"]

/-- The cells of an entity. -/
def apiCells (entry : String × Version) : List String :=
  [entry.1, toString (ofLex entry.2).1, toString (ofLex entry.2).2]

/-- The version table. -/
def writeApiVersions (entries : List (String × Version)) : List Char :=
  writeTable (apiHeader :: entries.map apiCells)

def clustersHeader : List String := ["文件", "簇名", "生效主版", "生效次版"]

/-- The cells of a cluster in a file. -/
def clusterCells (row : ClusterRow) : List String :=
  [row.fname, row.cluster, toString row.maj, toString row.mn]

/-- The cluster table. -/
def writeClusters (rows : List ClusterRow) : List Char :=
  writeTable (clustersHeader :: rows.map clusterCells)

/-- What is white space, as far as the tables go: the newline is, the comma and the characters of
numbers and headers are not. -/
structure TableSpaces (cls : CharClass) : Prop where
  newline : cls.isSpace '\n' = true
  comma : cls.isSpace ',' = false
  minus : cls.isSpace '-' = false
  digit : ∀ c, c.isDigit = true → cls.isSpace c = false
  header : ∀ c ∈ "实体主版次版文件簇名生效".toList, cls.isSpace c = false

/-- A cell that can be told from its row. -/
structure CleanCell (cls : CharClass) (cell : String) : Prop where
  comma : ',' ∉ cell.toList
  newline : '\n' ∉ cell.toList
  carriage : '\r' ∉ cell.toList
  trimmed : Trimmed cls cell.toList

/-- A row that can be told from a comment. -/
structure CleanRow (cls : CharClass) (cells : List String) : Prop where
  two : 2 ≤ cells.length
  clean : ∀ cell ∈ cells, CleanCell cls cell
  no_comment : ∀ cell ∈ cells.head?, cell.toList.head? ≠ some '#'

theorem cleanCell_toString (h : TableSpaces cls) (n : ℤ) : CleanCell cls (toString n) := by
  have hchar : ∀ c ∈ (toString n).toList, c.isDigit = true ∨ c = '-' := fun c hc =>
    isDigit_or_eq_of_mem_toString hc
  refine ⟨fun hc => ?_, fun hc => ?_, fun hc => ?_, trimmed_of_forall fun c hc => ?_⟩
  · exact absurd (hchar _ hc) (by decide)
  · exact absurd (hchar _ hc) (by decide)
  · exact absurd (hchar _ hc) (by decide)
  · rcases hchar c hc with hdigit | rfl
    · exact h.digit c hdigit
    · exact h.minus

/-- A written row is read as the row. -/
theorem hasCells_writeCells (h : TableSpaces cls) {cells : List String}
    (hrow : CleanRow cls cells) : HasCells cls (writeCells cells ++ ['\n']) cells := by
  have htrimmed : Trimmed cls (writeCells cells) := by
    refine trimmed_intercalate h.comma ?_
    simpa using fun cell hcell => (hrow.clean cell hcell).trimmed
  have hstrip := strip_concat htrimmed h.newline
  refine ⟨?_, cells.map String.toList, ?_, ?_, hstrip, ?_⟩
  · match cells, hrow with
    | a :: b :: rest, hrow =>
      rw [Ignored, hstrip, writeCells, List.map_cons, List.map_cons, List.intercalate_cons_cons]
      have hhash := hrow.no_comment a rfl
      cases ha : a.toList with
      | nil => simp
      | cons c cs =>
        rw [ha] at hhash
        simpa using hhash
  · have := hrow.two
    intro hnil
    rw [List.map_eq_nil_iff] at hnil
    simp [hnil] at this
  · simpa using fun cell hcell => (hrow.clean cell hcell).comma
  · rw [List.map_map]
    refine (List.map_id' cells).symm.trans (List.map_congr_left fun cell hcell => ?_)
    rw [Function.comp_apply, strip_of_trimmed (hrow.clean cell hcell).trimmed,
      String.ofList_toList]

/-- The line breaks of a written row are not in its cells. -/
theorem not_mem_writeCells {cells : List String} {c : Char}
    (hcomma : c ≠ ',') (hcells : ∀ cell ∈ cells, c ∉ cell.toList) : c ∉ writeCells cells := by
  intro hc
  rcases mem_intercalate hc with rfl | ⟨piece, hpiece, hmem⟩
  · exact hcomma rfl
  · obtain ⟨cell, hcell, rfl⟩ := List.mem_map.1 hpiece
    exact hcells cell hcell hmem

/-- The rows are the lines. -/
theorem readlines_writeTable {rows : List (List String)}
    (hrows : ∀ cells ∈ rows, CleanRow cls cells)
    (hmark : (writeTable rows).head? ≠ some '\uFEFF') :
    readlines (writeTable rows) = rows.map fun cells => writeCells cells ++ ['\n'] := by
  have hopened : opened (writeTable rows) = universal (writeTable rows) := by
    unfold opened
    split
    · rename_i htext
      rw [htext] at hmark
      exact absurd rfl hmark
    · rfl
  have hcarriage : '\r' ∉ writeTable rows := by
    intro hc
    obtain ⟨cells, hcells, hc⟩ := List.mem_flatMap.1 hc
    rcases List.mem_append.1 hc with hc | hc
    · have hrow := hrows cells hcells
      exact not_mem_writeCells (by decide) (fun cell h => (hrow.clean cell h).carriage) hc
    · exact absurd (List.mem_singleton.1 hc) (by decide)
  have hnewline : ∀ body ∈ rows.map writeCells, '\n' ∉ body := by
    intro body hbody
    obtain ⟨cells, hcells, rfl⟩ := List.mem_map.1 hbody
    have hrow := hrows cells hcells
    exact not_mem_writeCells (by decide) fun cell h => (hrow.clean cell h).newline
  have hlines := lines_flatMap_newline hnewline
  rw [List.flatMap_map, List.map_map] at hlines
  rw [readlines, hopened, universal_of_not_mem hcarriage]
  exact hlines

/-! ## Reading back -/

/-- A name that can stand in front of a row. -/
structure CleanName (cls : CharClass) (header name : String) : Prop where
  clean : CleanCell cls name
  no_comment : name.toList.head? ≠ some '#'
  no_header : name ≠ header

/-- A number `int` accepts for its length. -/
def Readable (ints : IntRules) (n : ℤ) : Prop :=
  ints.maxDigits = 0 ∨ (Nat.toDigits 10 n.natAbs).length ≤ ints.maxDigits

theorem int_toString {n : ℤ} (h : Readable ints n) : ints.int (toString n) = some n :=
  signed_toString h

/-- The columns of the headers. -/
theorem cleanRow_header (h : TableSpaces cls) {cells : List String}
    (hcells : cells ∈ [apiHeader, clustersHeader]) : CleanRow cls cells := by
  have hchars : ∀ cells ∈ [apiHeader, clustersHeader], 2 ≤ cells.length ∧
      (∀ cell ∈ cells, ',' ∉ cell.toList ∧ '\n' ∉ cell.toList ∧ '\r' ∉ cell.toList ∧
        ∀ c ∈ cell.toList, c ∈ "实体主版次版文件簇名生效".toList) ∧
      ∀ cell ∈ cells.head?, cell.toList.head? ≠ some '#' := by
    simp [apiHeader, clustersHeader]
  obtain ⟨htwo, hclean, hcomment⟩ := hchars cells hcells
  refine ⟨htwo, fun cell hcell => ?_, hcomment⟩
  obtain ⟨hcomma, hnewline, hcarriage, hheader⟩ := hclean cell hcell
  exact ⟨hcomma, hnewline, hcarriage, trimmed_of_forall fun c hc => h.header c (hheader c hc)⟩

theorem cleanRow_apiCells (h : TableSpaces cls) {entry : String × Version}
    (hname : CleanName cls "实体" entry.1) : CleanRow cls (apiCells entry) where
  two := by simp [apiCells]
  clean := by
    simp only [apiCells, List.forall_mem_cons]
    exact ⟨hname.clean, cleanCell_toString h _, cleanCell_toString h _, by simp⟩
  no_comment := by
    rintro _ ⟨⟩
    exact hname.no_comment

theorem cleanRow_clusterCells (h : TableSpaces cls) {row : ClusterRow}
    (hname : CleanName cls "文件" row.fname) (hcluster : CleanCell cls row.cluster) :
    CleanRow cls (clusterCells row) where
  two := by simp [clusterCells]
  clean := by
    simp only [clusterCells, List.forall_mem_cons]
    exact ⟨hname.clean, hcluster, cleanCell_toString h _, cleanCell_toString h _, by simp⟩
  no_comment := by
    rintro _ ⟨⟩
    exact hname.no_comment

/-- The lines of a table with a header. -/
theorem readlines_writeTable_cons {header : List String} (h : TableSpaces cls)
    (hheader : header ∈ [apiHeader, clustersHeader]) {rows : List (List String)}
    (hrows : ∀ cells ∈ rows, CleanRow cls cells) :
    readlines (writeTable (header :: rows)) =
      (writeCells header ++ ['\n']) :: rows.map fun cells => writeCells cells ++ ['\n'] := by
  refine readlines_writeTable (List.forall_mem_cons.2 ⟨cleanRow_header h hheader, hrows⟩) ?_
  have hmark : ∀ header ∈ [apiHeader, clustersHeader],
      (writeCells header ++ ['\n']).head? ≠ some '\uFEFF' := by
    decide +kernel
  rw [writeTable, List.flatMap_cons, List.head?_append_of_ne_nil _ (by simp)]
  exact hmark header hheader

/-- A header that makes no entry, and lines that make theirs. -/
theorem filterMap_cons_map {α : Type*} {f : List Char → Option α} {g : α → List Char}
    {header : List Char} {xs : List α} (hheader : f header = none)
    (hg : ∀ x ∈ xs, f (g x) = some x) : (header :: xs.map g).filterMap f = xs := by
  rw [List.filterMap_cons_none hheader, List.filterMap_map]
  exact (List.filterMap_congr hg).trans List.filterMap_some

/-- A line has one row of cells. -/
theorem HasCells.unique {line : List Char} {cells cells' : List String}
    (h : HasCells cls line cells) (h' : HasCells cls line cells') : cells = cells' :=
  (hasCells_iff.1 h).2.symm.trans (hasCells_iff.1 h').2

section
variable {path : String}

theorem loadApiVersions_writeApiVersions (h : TableSpaces cls)
    {entries : List (String × Version)} (hnames : ∀ entry ∈ entries, CleanName cls "实体" entry.1)
    (hread : ∀ entry ∈ entries, Readable ints (ofLex entry.2).1 ∧ Readable ints (ofLex entry.2).2) :
    loadApiVersions cls ints path (writeApiVersions entries) = (assignAll entries, []) := by
  have hrows : ∀ cells ∈ entries.map apiCells, CleanRow cls cells :=
    List.forall_mem_map.2 fun entry hentry => cleanRow_apiCells h (hnames entry hentry)
  have hlines := readlines_writeTable_cons h List.mem_cons_self hrows
  have hheader : HasCells cls (writeCells apiHeader ++ ['\n']) apiHeader :=
    hasCells_writeCells h (cleanRow_header h List.mem_cons_self)
  have hgives : ∀ entry ∈ entries,
      GivesVersion cls ints (writeCells (apiCells entry) ++ ['\n']) entry.1 entry.2 := by
    intro entry hentry
    obtain ⟨hmaj, hmn⟩ := hread entry hentry
    exact ⟨_, _, hasCells_writeCells h (cleanRow_apiCells h (hnames entry hentry)),
      (hnames entry hentry).no_header, int_toString hmaj, int_toString hmn⟩
  rw [List.map_map] at hlines
  refine Prod.ext ?_ ?_
  · rw [loadApiVersions_fst, writeApiVersions, hlines]
    refine congrArg assignAll (filterMap_cons_map ?_ fun entry hentry =>
      apiLine_eq_some_iff.2 (hgives entry hentry))
    refine Option.eq_none_iff_forall_ne_some.2 fun entry hentry => ?_
    obtain ⟨maj, mn, hcells, hname, -⟩ := apiLine_eq_some_iff.1 hentry
    exact hname (List.cons.inj (hcells.unique hheader)).1
  · refine (loadApiVersions_snd_eq_nil_iff path _).2 ?_
    rw [writeApiVersions, hlines, List.forall_mem_cons, List.forall_mem_map]
    exact ⟨Or.inr (Or.inl ⟨_, _, hheader⟩), fun entry hentry =>
      Or.inr (Or.inr ⟨_, _, hgives entry hentry⟩)⟩

theorem loadClusters_writeClusters (h : TableSpaces cls) {rows : List ClusterRow}
    (hnames : ∀ row ∈ rows, CleanName cls "文件" row.fname ∧ CleanCell cls row.cluster)
    (hread : ∀ row ∈ rows, Readable ints row.maj ∧ Readable ints row.mn) :
    loadClusters cls ints path (writeClusters rows) = (rows, []) := by
  have hheaderMem : clustersHeader ∈ [apiHeader, clustersHeader] := by
    simp
  have hrow : ∀ row ∈ rows, CleanRow cls (clusterCells row) := fun row hmem =>
    cleanRow_clusterCells h (hnames row hmem).1 (hnames row hmem).2
  have hlines := readlines_writeTable_cons h hheaderMem (List.forall_mem_map.2 hrow)
  have hheader : HasCells cls (writeCells clustersHeader ++ ['\n']) clustersHeader :=
    hasCells_writeCells h (cleanRow_header h hheaderMem)
  have hgives : ∀ row ∈ rows,
      GivesRow cls ints (writeCells (clusterCells row) ++ ['\n']) row := by
    intro row hmem
    obtain ⟨hmaj, hmn⟩ := hread row hmem
    exact ⟨_, _, hasCells_writeCells h (hrow row hmem), (hnames row hmem).1.no_header,
      int_toString hmaj, int_toString hmn⟩
  rw [List.map_map] at hlines
  refine Prod.ext ?_ ?_
  · rw [loadClusters_fst, writeClusters, hlines]
    refine filterMap_cons_map ?_ fun row hmem => clusterLine_eq_some_iff.2 (hgives row hmem)
    refine Option.eq_none_iff_forall_ne_some.2 fun row hmem => ?_
    obtain ⟨maj, mn, hcells, hname, -⟩ := clusterLine_eq_some_iff.1 hmem
    exact hname (List.cons.inj (hcells.unique hheader)).1
  · refine (loadClusters_snd_eq_nil_iff path _).2 ?_
    rw [writeClusters, hlines, List.forall_mem_cons, List.forall_mem_map]
    exact ⟨Or.inr (Or.inl ⟨_, _, _, hheader⟩), fun row hmem =>
      Or.inr (Or.inr ⟨row, hgives row hmem⟩)⟩

/-- What is written as a version table and a cluster table is read back, without a failure. -/
theorem tables_read_back (h : TableSpaces cls) {api clusters : String}
    {entries : List (String × Version)} {rows : List ClusterRow}
    (hentries : ∀ entry ∈ entries, CleanName cls "实体" entry.1 ∧
      Readable ints (ofLex entry.2).1 ∧ Readable ints (ofLex entry.2).2)
    (hrows : ∀ row ∈ rows, CleanName cls "文件" row.fname ∧ CleanCell cls row.cluster ∧
      Readable ints row.maj ∧ Readable ints row.mn) :
    loadApiVersions cls ints api (writeApiVersions entries) = (assignAll entries, []) ∧
      loadClusters cls ints clusters (writeClusters rows) = (rows, []) :=
  ⟨loadApiVersions_writeApiVersions h (fun entry hentry => (hentries entry hentry).1)
      fun entry hentry => (hentries entry hentry).2,
    loadClusters_writeClusters h
      (fun row hrow => ⟨(hrows row hrow).1, (hrows row hrow).2.1⟩)
      fun row hrow => (hrows row hrow).2.2⟩

end

/-- Plain white space is white space as far as the tables go. -/
theorem tableSpaces_ascii : TableSpaces .ascii where
  newline := by decide
  comma := by decide
  minus := by decide
  digit c hc := by
    have hval : 48 ≤ c.val.toNat := by
      simp only [Char.isDigit, Bool.and_eq_true, decide_eq_true_eq] at hc
      exact UInt32.le_iff_toNat_le.1 hc.1
    have hne : ∀ d : Char, d.val.toNat < 48 → c ≠ d := by
      rintro d hd rfl
      omega
    change Char.isWhitespace c = false
    simp [Char.isWhitespace, hne ' ' (by decide), hne '\t' (by decide), hne '\r' (by decide),
      hne '\n' (by decide)]
  header := by simp [CharClass.ascii, Char.isWhitespace]

/-- A table that gives a version twice, and one with two clusters. -/
def sampleEntries : List (String × Version) :=
  [("comm_idup", toLex (3, 0)), ("mprobe", toLex (3, 0)), ("comm_idup", toLex (3, 1))]

def sampleRows : List ClusterRow :=
  [idupRow, ⟨"include/unimpi_vtable.h", "matched_probe", 3, 0⟩]

/-- The last version counts, at the place of the first. -/
theorem tables_read_back_sample :
    loadApiVersions .ascii ⟨.ascii, 4300⟩ "api_versions.csv" (writeApiVersions sampleEntries) =
        ([("comm_idup", toLex (3, 1)), ("mprobe", toLex (3, 0))], []) ∧
      loadClusters .ascii ⟨.ascii, 4300⟩ "versioned_clusters.csv" (writeClusters sampleRows) =
        (sampleRows, []) := by
  have hdigit : ∀ n ∈ [(0 : ℤ), 1, 3], Readable ⟨.ascii, 4300⟩ n := fun n hn =>
    Or.inr (by revert n; decide)
  have hclean : ∀ name ∈ ["comm_idup", "mprobe", "matched_probe", "include/unimpi_vtable.h"],
      CleanCell .ascii name ∧ name.toList.head? ≠ some '#' ∧ name ≠ "实体" ∧ name ≠ "文件" := by
    have hchars : ∀ name ∈ ["comm_idup", "mprobe", "matched_probe", "include/unimpi_vtable.h"],
        ',' ∉ name.toList ∧ '\n' ∉ name.toList ∧ '\r' ∉ name.toList ∧
        (∀ c ∈ name.toList, c.isWhitespace = false) ∧ name.toList.head? ≠ some '#' ∧
        name ≠ "实体" ∧ name ≠ "文件" := by
      simp [Char.isWhitespace]
    intro name hname
    obtain ⟨hcomma, hnewline, hcarriage, hspace, hrest⟩ := hchars name hname
    exact ⟨⟨hcomma, hnewline, hcarriage, trimmed_of_forall hspace⟩, hrest⟩
  have hassigned : assignAll sampleEntries =
      [("comm_idup", toLex (3, 1)), ("mprobe", toLex (3, 0))] := by decide
  rw [← hassigned]
  refine tables_read_back tableSpaces_ascii ?_ ?_
  · intro entry hentry
    have hin : entry.1 ∈ ["comm_idup", "mprobe", "matched_probe", "include/unimpi_vtable.h"] ∧
        (ofLex entry.2).1 ∈ [(0 : ℤ), 1, 3] ∧ (ofLex entry.2).2 ∈ [(0 : ℤ), 1, 3] := by
      revert entry
      decide
    obtain ⟨hcell, hhash, hheader, -⟩ := hclean _ hin.1
    exact ⟨⟨hcell, hhash, hheader⟩, hdigit _ hin.2.1, hdigit _ hin.2.2⟩
  · intro row hrow
    have hin : row.fname ∈ ["comm_idup", "mprobe", "matched_probe", "include/unimpi_vtable.h"] ∧
        row.cluster ∈ ["comm_idup", "mprobe", "matched_probe", "include/unimpi_vtable.h"] ∧
        row.maj ∈ [(0 : ℤ), 1, 3] ∧ row.mn ∈ [(0 : ℤ), 1, 3] := by
      revert row
      decide
    obtain ⟨hcell, hhash, -, hheader⟩ := hclean _ hin.1
    exact ⟨⟨hcell, hhash, hheader⟩, (hclean _ hin.2.1).1, hdigit _ hin.2.2.1,
      hdigit _ hin.2.2.2⟩

end UniMPI
