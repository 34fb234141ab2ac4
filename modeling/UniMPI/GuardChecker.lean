import UniMPI.Lib.SourceText

/-!
# The guard checker

`check_guards` of the version gate, on the text of the file that a row of the
cluster table names. The checker takes the first line with the row's guard comment,
the nearest line above it that looks like the row's `#if`, and the nearest line
below it that starts with `#endif`, and asks every member of the cluster for one
line strictly between the two (`checkText_eq_ok_nil_iff`). It does not follow the
conditionals between these lines, and one line inside is enough for a member.

What the rule promises is said with the conditionals that are open at a line
(`Wrapped`). Of a line that mentions a member the checker does not look whether it
is below the picked `#if`, whether that is a guard of the row, and whether the lines
between close it (`Overlooked`). A file in which no mention is overlooked keeps the
promise, and where no mention stands in the block of another guard of the version
only such a file does (`guardsSound_of_picked`).
-/

namespace UniMPI

open Conditionals LinePattern SourceText

/-! ## The tables -/

/-- A row of the cluster table. -/
structure ClusterRow where
  fname : String
  cluster : String
  maj : Int
  mn : Int
deriving DecidableEq

/-- `REGISTRY`: the members of each cluster. -/
def registry : List (String × List String) := [
  ("matched_probe", ["mprobe", "improbe", "mrecv", "imrecv"]),
  ("nonblocking_collectives", [
    "ibarrier", "ibcast", "igather", "igatherv", "iscatter", "iscatterv",
    "iallgather", "iallgatherv", "ialltoall", "ialltoallv", "ialltoallw",
    "ireduce", "iallreduce", "ireduce_scatter", "ireduce_scatter_block",
    "iscan", "iexscan"]),
  ("comm_3x", [
    "comm_dup_with_info", "comm_split_type", "comm_create_group",
    "comm_get_info", "comm_set_info"]),
  ("win_alloc_shared", ["win_allocate", "win_allocate_shared", "win_create_dynamic"]),
  ("rma_atomics", [
    "get_accumulate", "fetch_and_op", "compare_and_swap", "rput", "rget",
    "raccumulate", "rget_accumulate"]),
  ("rma_sync_3x", [
    "win_lock_all", "win_unlock_all", "win_flush", "win_flush_all",
    "win_flush_local", "win_sync"]),
  ("neighbor_collectives", [
    "neighbor_allgather", "neighbor_allgatherv", "neighbor_alltoall",
    "neighbor_alltoallv", "neighbor_alltoallw",
    "ineighbor_allgather", "ineighbor_allgatherv", "ineighbor_alltoall",
    "ineighbor_alltoallv", "ineighbor_alltoallw"]),
  ("large_count", [
    "get_elements_x", "status_set_elements_x", "type_get_extent_x",
    "type_get_true_extent_x", "type_size_x", "type_create_hindexed_block"]),
  ("win_dynamic", [
    "win_attach", "win_detach", "win_shared_query", "win_flush_local_all",
    "win_get_info", "win_set_info"]),
  ("mpi_t_tools", [
    "t_init_thread", "t_finalize",
    "t_cvar_get_num", "t_cvar_get_info",
    "t_cvar_handle_alloc", "t_cvar_handle_free", "t_cvar_read",
    "t_cvar_read_index", "t_cvar_write", "t_cvar_write_index",
    "t_pvar_get_num", "t_pvar_get_info",
    "t_pvar_session_create", "t_pvar_session_free", "t_pvar_handle_alloc",
    "t_pvar_handle_free", "t_pvar_start", "t_pvar_stop", "t_pvar_read",
    "t_pvar_write", "t_pvar_readreset", "t_pvar_reset", "t_pvar_aggregate",
    "t_category_get_num", "t_category_get_info",
    "t_category_get_cvars", "t_category_get_pvars", "t_category_get_categories",
    "t_category_changed", "t_enum_get_info", "t_enum_get_item"]),
  ("mpi_t_get_index", ["t_cvar_get_index", "t_pvar_get_index", "t_category_get_index"]),
  ("aint_add_diff", ["aint_add", "aint_diff"]),
  ("nonblocking_io_all", [
    "file_iread_all", "file_iwrite_all", "file_iread_at_all", "file_iwrite_at_all"]),
  ("comm_idup", ["comm_idup"])]

/-- `REGISTRY[cluster]`. -/
def clusterMembers (cluster : String) : Option (List String) :=
  registry.lookup cluster

/-! ## The patterns -/

namespace ClusterRow

variable (row : ClusterRow)

/-- `MPI-<maj>.<min>` -/
def versionTag : String :=
  "MPI-" ++ toString row.maj ++ "." ++ toString row.mn

/-- `UNIMPI_MPI_AT_LEAST(<maj>,<min>)` -/
def versionTest : String :=
  "UNIMPI_MPI_AT_LEAST(" ++ toString row.maj ++ "," ++ toString row.mn ++ ")"

/-- `comment_rx` -/
def commentPattern : List Atom :=
  [.lit "/*".toList, .spaces 0, .lit row.versionTag.toList, .spaces 1, .lit row.cluster.toList,
    .spaces 0, .lit "*/".toList]

/-- `guard_rx` -/
def guardPattern : List Atom :=
  [.lit "#if".toList, .spaces 1, .lit row.versionTest.toList]

end ClusterRow

/-- `^\s*#endif\b`, from the beginning of the line. -/
def endifPattern : List Atom :=
  [.spaces 0, .lit "#endif".toList, .boundary]

/-- `\b<member>\b` -/
def memberPattern (member : String) : List Atom :=
  [.boundary, .lit member.toList, .boundary]

/-! ## The failures -/

inductive GuardFailure
  | fileNotFound (path : String)
  | noComment (row : ClusterRow)
  | noGuard (row : ClusterRow)
  | noEndif (row : ClusterRow)
  | malformedSpan (row : ClusterRow)
  | memberMissing (row : ClusterRow) (member : String)
  | memberOutside (row : ClusterRow) (hitLine : ℕ) (member : String)
deriving DecidableEq

/-- The message handed to `fail`. -/
def GuardFailure.message : GuardFailure → String
  | fileNotFound path => "--require-guards: file not found: " ++ path
  | noComment row => row.fname ++ ":" ++ row.cluster ++ ": could not locate guard comment '/* " ++
      row.versionTag ++ " " ++ row.cluster ++ " */'"
  | noGuard row => row.fname ++ ":" ++ row.cluster ++ ": '#if " ++ row.versionTest ++
      "' not found before guard comment"
  | noEndif row => row.fname ++ ":" ++ row.cluster ++ ": '#endif' not found after guard comment"
  | malformedSpan row => row.fname ++ ":" ++ row.cluster ++
      ": malformed guard span (#if after #endif)"
  | memberMissing row member => row.fname ++ ": member '" ++ member ++ "' of cluster '" ++
      row.cluster ++ "' not found in file at all"
  | memberOutside row hitLine member => row.fname ++ ":" ++ toString hitLine ++ ": member '" ++
      member ++ "' of cluster '" ++ row.cluster ++
      "' is outside the guard span (not wrapped by #if..#endif)"

/-- A cluster that is not in the registry ends the run. -/
structure KeyError where
  key : String
deriving DecidableEq

/-! ## The checker -/

/-- A text opened with `utf-8-sig` loses its byte order mark, and its newlines are universal. -/
def opened (text : List Char) : List Char :=
  match text with
  | '\uFEFF' :: text => universal text
  | text => universal text

/-- `fh.readlines()` -/
def readlines (text : List Char) : List (List Char) :=
  lines (opened text)

/-- `resolve_file_path` -/
def resolveFilePath (repoRoot fname : String) : String :=
  if fname.startsWith "/" then fname
  else if repoRoot = "" ∨ repoRoot.endsWith "/" then repoRoot ++ fname
  else repoRoot ++ "/" ++ fname

variable (cls : CharClass)

/-- `_member_line_indices` -/
def memberLineIndices (ls : List (List Char)) (member : String) : List ℕ :=
  lineIndices (search cls (memberPattern member)) ls

variable (row : ClusterRow) (ls : List (List Char))

/-- The lines the checker takes for the guard of the row and its end. -/
def guardSpan : Except GuardFailure (ℕ × ℕ) :=
  match (lineIndices (search cls row.commentPattern) ls).head? with
  | none => .error (.noComment row)
  | some commentLine =>
    let start := nearestAbove (search cls row.guardPattern) ls commentLine
    let stop := nearestBelow (matchesAt cls endifPattern none) ls commentLine
    match start, stop with
    | none, _ => .error (.noGuard row)
    | some _, none => .error (.noEndif row)
    | some start, some stop =>
      if stop ≤ start then .error (.malformedSpan row) else .ok (start, stop)

/-- The round of the loop over the members. -/
def checkMember (start stop : ℕ) (member : String) : Option GuardFailure :=
  match memberLineIndices cls ls member with
  | [] => some (.memberMissing row member)
  | hit :: hits =>
    if (hit :: hits).any fun l => start < l && l < stop then none
    else some (.memberOutside row (hit + 1) member)

/-- The failures of a row whose file has this text. -/
def checkText (text : List Char) : Except KeyError (List GuardFailure) :=
  match guardSpan cls row (readlines text) with
  | .error failure => .ok [failure]
  | .ok (start, stop) =>
    match clusterMembers row.cluster with
    | none => .error ⟨row.cluster⟩
    | some members => .ok (members.filterMap (checkMember cls row (readlines text) start stop))

/-- The failures of a row. `files` is the text of each path that is a file. -/
def checkRow (repoRoot : String) (files : String → Option (List Char)) :
    Except KeyError (List GuardFailure) :=
  match files (resolveFilePath repoRoot row.fname) with
  | none => .ok [.fileNotFound (resolveFilePath repoRoot row.fname)]
  | some text => checkText cls row text

/-- `check_guards`: the failures of the rows, one row after the other. -/
def checkGuards (repoRoot : String) (files : String → Option (List Char)) :
    List ClusterRow → Except KeyError (List GuardFailure)
  | [] => .ok []
  | row :: rows => do
    let failures ← checkRow cls row repoRoot files
    let others ← checkGuards repoRoot files rows
    return failures ++ others

/-! ## The rows that pass -/

variable {cls row ls} {text : List Char} {start stop : ℕ}

/-- `word` is a whole word of line `l`. -/
def WordAt (cls : CharClass) (ls : List (List Char)) (word : String) (l : ℕ) : Prop :=
  ∃ line, ls[l]? = some line ∧ WholeWord cls word.toList line

/-- The lines the checker works with: the first guard comment, the nearest guard above it and the
nearest `#endif` below it. -/
structure Picked (cls : CharClass) (row : ClusterRow) (ls : List (List Char))
    (commentLine start stop : ℕ) : Prop where
  comment : onLine (search cls row.commentPattern) ls commentLine = true
  first : ∀ l < commentLine, onLine (search cls row.commentPattern) ls l = false
  above : start < commentLine
  guard : onLine (search cls row.guardPattern) ls start = true
  nearest_guard : ∀ l, start < l → l < commentLine →
    onLine (search cls row.guardPattern) ls l = false
  below : commentLine < stop
  endif : onLine (matchesAt cls endifPattern none) ls stop = true
  nearest_endif : ∀ l, commentLine < l → l < stop →
    onLine (matchesAt cls endifPattern none) ls l = false

theorem guardSpan_eq_ok_iff : guardSpan cls row ls = .ok (start, stop) ↔
    ∃ commentLine, Picked cls row ls commentLine start stop := by
  unfold guardSpan
  constructor
  · intro h
    split at h
    · exact nomatch h
    · rename_i commentLine hcomment
      dsimp only at h
      split at h
      · exact nomatch h
      · exact nomatch h
      · rename_i hstart hstop
        split at h
        · exact nomatch h
        · cases h
          obtain ⟨hc, hfirst⟩ := head?_lineIndices_eq_some_iff.1 hcomment
          obtain ⟨habove, hguard, hnearest⟩ := nearestAbove_eq_some_iff.1 hstart
          obtain ⟨hbelow, hendif, hnearest'⟩ := nearestBelow_eq_some_iff.1 hstop
          exact ⟨commentLine, hc, hfirst, habove, hguard, hnearest, hbelow, hendif, hnearest'⟩
  · rintro ⟨commentLine, h⟩
    rw [head?_lineIndices_eq_some_iff.2 ⟨h.comment, h.first⟩]
    simp only [nearestAbove_eq_some_iff.2 ⟨h.above, h.guard, h.nearest_guard⟩,
      nearestBelow_eq_some_iff.2 ⟨h.below, h.endif, h.nearest_endif⟩]
    exact if_neg (Nat.not_le.2 (h.above.trans h.below))

/-- The guard is looked for above the comment and the `#endif` below it, so the check of their
order never fails. -/
theorem guardSpan_ne_malformedSpan : guardSpan cls row ls ≠ .error (.malformedSpan row) := by
  intro h
  unfold guardSpan at h
  split at h
  · cases h
  · rename_i commentLine _
    dsimp only at h
    split at h
    · cases h
    · cases h
    · rename_i hstart hstop
      have habove := (nearestAbove_eq_some_iff.1 hstart).1
      have hbelow := (nearestBelow_eq_some_iff.1 hstop).1
      rw [if_neg (Nat.not_le.2 (habove.trans hbelow))] at h
      cases h

/-- A name is a word of plain characters. -/
def isName (name : String) : Bool :=
  !name.toList.isEmpty && name.toList.all asciiWord

/-- All names of the registry are. -/
theorem registry_names : (registry.all fun entry => entry.2.all isName) = true := by
  decide +kernel

theorem isName_of_clusterMembers {cluster member : String} {members : List String}
    (h : clusterMembers cluster = some members) (hmem : member ∈ members) :
    isName member = true := by
  obtain ⟨l₁, l₂, hreg, -⟩ := List.lookup_eq_some_iff.1 h
  have hentry : (cluster, members) ∈ registry := by
    rw [hreg]
    exact List.mem_append_right _ List.mem_cons_self
  exact List.all_eq_true.1 (List.all_eq_true.1 registry_names _ hentry) member hmem

/-- The lines of a name are those it is a whole word of. -/
theorem mem_memberLineIndices_iff {member : String} {l : ℕ} (hname : isName member = true) :
    l ∈ memberLineIndices cls ls member ↔ WordAt cls ls member l := by
  obtain ⟨hne, hascii⟩ := Bool.and_eq_true_iff.1 hname
  replace hne : member.toList ≠ [] := by simpa using hne
  have hword : ∀ c ∈ member.toList, cls.isWord c = true := fun c hc =>
    cls.isWord_of_ascii c (List.all_eq_true.1 hascii c hc)
  rw [memberLineIndices, mem_lineIndices_iff, onLine_eq_true_iff]
  exact exists_congr fun line => and_congr_right fun _ => search_word_iff hne hword line

theorem checkMember_eq_none_iff {member : String} :
    checkMember cls row ls start stop member = none ↔
      ∃ l ∈ memberLineIndices cls ls member, start < l ∧ l < stop := by
  unfold checkMember
  split
  · rename_i hnil
    simp [hnil]
  · rename_i hit hits hcons
    rw [hcons]
    split
    · rename_i hany
      simpa using hany
    · rename_i hany
      simpa using hany

/-- The lines the checker works with are there, and every member of the cluster is a whole word of
one line between them. -/
def Passes (cls : CharClass) (row : ClusterRow) (text : List Char) (start stop : ℕ) : Prop :=
  ∃ commentLine members, Picked cls row (readlines text) commentLine start stop ∧
    clusterMembers row.cluster = some members ∧
    ∀ member ∈ members, ∃ l, start < l ∧ l < stop ∧ WordAt cls (readlines text) member l

theorem filterMap_checkMember_eq_nil_iff {members : List String}
    (hreg : clusterMembers row.cluster = some members) :
    members.filterMap (checkMember cls row ls start stop) = [] ↔
      ∀ member ∈ members, ∃ l, start < l ∧ l < stop ∧ WordAt cls ls member l := by
  rw [List.filterMap_eq_nil_iff]
  refine forall₂_congr fun member hmem => ?_
  rw [checkMember_eq_none_iff]
  refine exists_congr fun l => ?_
  rw [mem_memberLineIndices_iff (isName_of_clusterMembers hreg hmem)]
  tauto

theorem checkText_eq_ok_nil_iff :
    checkText cls row text = .ok [] ↔ ∃ start stop, Passes cls row text start stop := by
  unfold checkText
  constructor
  · intro h
    split at h
    · exact nomatch h
    · rename_i start stop hspan
      split at h
      · exact nomatch h
      · rename_i members hreg
        obtain ⟨commentLine, hpicked⟩ := guardSpan_eq_ok_iff.1 hspan
        have hin := (filterMap_checkMember_eq_nil_iff hreg).1 (Except.ok.inj h)
        exact ⟨start, stop, commentLine, members, hpicked, hreg, hin⟩
  · rintro ⟨start, stop, commentLine, members, hpicked, hreg, hin⟩
    simp only [guardSpan_eq_ok_iff.2 ⟨commentLine, hpicked⟩, hreg]
    rw [(filterMap_checkMember_eq_nil_iff hreg).2 hin]

-- a member left behind the `#endif`, from the checker's own tests
example : checkText .ascii ⟨"guard_partial.c", "matched_probe", 3, 0⟩
    ("#if UNIMPI_MPI_AT_LEAST(3,0)\n/* MPI-3.0 matched_probe */\n" ++
      "int (*mprobe)(void);\nint (*improbe)(void);\nint (*mrecv)(void);\n" ++
      "#endif\nint (*imrecv)(void);\n").toList =
    .ok [.memberOutside ⟨"guard_partial.c", "matched_probe", 3, 0⟩ 7 "imrecv"] := by
  decide +kernel

/-- The rows pass if each does. -/
theorem checkGuards_eq_ok_nil_iff {repoRoot : String} {files : String → Option (List Char)} :
    ∀ rows : List ClusterRow, checkGuards cls repoRoot files rows = .ok [] ↔
      ∀ row ∈ rows, checkRow cls row repoRoot files = .ok []
  | [] => by simp [checkGuards]
  | row :: rows => by
    rw [checkGuards, List.forall_mem_cons, ← checkGuards_eq_ok_nil_iff rows]
    cases checkRow cls row repoRoot files with
    | error e => simp [bind, Except.bind]
    | ok failures =>
      cases checkGuards cls repoRoot files rows with
      | error e => simp [bind, Except.bind]
      | ok others => simp [bind, Except.bind, pure, Except.pure]

/-! ## What the rule promises -/

/-- The lines of the text with the comments hidden. -/
def codeLines (text : List Char) : List (List Char) :=
  lines (blank .code (opened text))

/-- They are the lines the checker reads, with some characters hidden. -/
theorem forall₂_codeLines (text : List Char) :
    List.Forall₂ (List.Forall₂ Shows) (readlines text) (codeLines text) :=
  lines_blank .code (opened text)

/-- Line `l` mentions a member of the cluster outside comments. -/
def Mentions (cls : CharClass) (row : ClusterRow) (text : List Char) (l : ℕ) : Prop :=
  ∃ members, clusterMembers row.cluster = some members ∧
    ∃ member ∈ members, WordAt cls (codeLines text) member l

/-- Line `g` is `#if UNIMPI_MPI_AT_LEAST(maj,min)` with the row's version. -/
def IsGuard (cls : CharClass) (row : ClusterRow) (text : List Char) (g : ℕ) : Prop :=
  ∃ condition, directiveAt cls (codeLines text) g = some ("if".toList, condition) ∧
    condition.filter (fun c => !cls.isSpace c) = row.versionTest.toList

/-- A guard of the row is open at line `l`. -/
def Wrapped (cls : CharClass) (row : ClusterRow) (text : List Char) (l : ℕ) : Prop :=
  ∃ g ∈ openBefore (mark cls (codeLines text)) l, IsGuard cls row text g

/-- If the row has no failure, every mention of its cluster in the file is wrapped. -/
def GuardsSound (cls : CharClass) (row : ClusterRow) (text : List Char) : Prop :=
  ∀ repoRoot files, files (resolveFilePath repoRoot row.fname) = some text →
    checkRow cls row repoRoot files = .ok [] →
    ∀ l, Mentions cls row text l → Wrapped cls row text l

/-- Line `g` is a guard of the row, and from it to `l` the closing lines never outnumber the
opening ones. -/
def GuardKept (cls : CharClass) (row : ClusterRow) (text : List Char) (g l : ℕ) : Prop :=
  IsGuard cls row text g ∧ Unclosed (mark cls (codeLines text)) g l

theorem IsGuard.mark_eq {g : ℕ} (h : IsGuard cls row text g) :
    mark cls (codeLines text) g = .opening := by
  obtain ⟨condition, hdir, -⟩ := h
  exact mark_eq_opening_of_if hdir

theorem wrapped_iff {l : ℕ} : Wrapped cls row text l ↔ ∃ g < l, GuardKept cls row text g l :=
  exists_mem_openBefore_iff fun _ => IsGuard.mark_eq

theorem guardsSound_iff_wrapped : GuardsSound cls row text ↔
    ∀ start stop, Passes cls row text start stop →
      ∀ l, Mentions cls row text l → Wrapped cls row text l := by
  constructor
  · intro h start stop hpass
    exact h "" (fun _ => some text) rfl (checkText_eq_ok_nil_iff.2 ⟨start, stop, hpass⟩)
  · intro h repoRoot files hfile hcheck
    rw [checkRow, hfile] at hcheck
    obtain ⟨start, stop, hpass⟩ := checkText_eq_ok_nil_iff.1 hcheck
    exact h start stop hpass

/-- What the checker does not look at: the mention on line `l` is not below the picked `#if`, or
that is no guard of the row (but in a comment, or with a longer condition), or more conditionals
are closed than opened on a stretch of lines after it. -/
inductive Overlooked (cls : CharClass) (row : ClusterRow) (text : List Char) (start l : ℕ) : Prop
  | notBelow (h : l ≤ start)
  | notGuard (h : ¬IsGuard cls row text start)
  | closed (k : ℕ) (hk : start + 1 + k ≤ l) (h : excess (mark cls (codeLines text)) start k < 0)

theorem not_overlooked_iff {l : ℕ} :
    ¬Overlooked cls row text start l ↔ start < l ∧ GuardKept cls row text start l := by
  constructor
  · intro h
    refine ⟨Nat.lt_of_not_le fun hle => h (.notBelow hle), ?_, fun k hk => ?_⟩
    · by_contra hguard
      exact h (.notGuard hguard)
    · exact Int.not_lt.1 fun hneg => h (.closed k hk hneg)
  · rintro ⟨hlt, hguard, hkept⟩ (hle | hno | ⟨k, hk, hneg⟩)
    · exact absurd hlt (Nat.not_lt.2 hle)
    · exact hno hguard
    · exact absurd hneg (Int.not_lt.2 (hkept k hk))

/-- A mention that is not overlooked is wrapped by the picked `#if`. -/
theorem guardsSound_of_not_overlooked (h : ∀ start stop, Passes cls row text start stop →
    ∀ l, Mentions cls row text l → ¬Overlooked cls row text start l) :
    GuardsSound cls row text := by
  rw [guardsSound_iff_wrapped]
  intro start stop hpass l hl
  exact wrapped_iff.2 ⟨start, not_overlooked_iff.1 (h start stop hpass l hl)⟩

/-- The guard checker is right about a file if the row fails or no mention of a member is
overlooked. Where no mention stands in the block of another guard of the row's version, it is right
only then. -/
theorem guardsSound_of_picked (cls : CharClass) (row : ClusterRow) (text : List Char) :
    ((∀ start stop, Passes cls row text start stop →
        ∀ l, Mentions cls row text l → ¬Overlooked cls row text start l) →
      GuardsSound cls row text) ∧
    ((∀ start stop, Passes cls row text start stop →
        ∀ l, Mentions cls row text l → ∀ g < l, g ≠ start → ¬GuardKept cls row text g l) →
      (GuardsSound cls row text ↔ ∀ start stop, Passes cls row text start stop →
        ∀ l, Mentions cls row text l → ¬Overlooked cls row text start l)) := by
  refine ⟨guardsSound_of_not_overlooked, fun hother => ⟨fun hsound => ?_,
    guardsSound_of_not_overlooked⟩⟩
  intro start stop hpass l hl
  obtain ⟨g, hlt, hkept⟩ := wrapped_iff.1 (guardsSound_iff_wrapped.1 hsound start stop hpass l hl)
  -- the guard that is open at the mention is the picked one
  obtain rfl : g = start := by
    by_contra hne
    exact hother start stop hpass l hl g hlt hne hkept
  exact not_overlooked_iff.2 ⟨hlt, hkept⟩

/-- The member of the cluster is declared again below its guard. -/
def repeatedText : List Char :=
  ("#if UNIMPI_MPI_AT_LEAST(3,1)\n" ++
    "/* MPI-3.1 comm_idup */\n" ++
    "int (*comm_idup)(void);\n" ++
    "#endif\n" ++
    "int (*comm_idup)(void);\n").toList

/-- The row of the cluster. -/
def idupRow : ClusterRow :=
  ⟨"include/unimpi_vtable.h", "comm_idup", 3, 1⟩

/-- Its only member is mentioned on the lines of that name. -/
theorem mentions_idupRow_iff {l : ℕ} : Mentions .ascii idupRow text l ↔
    l ∈ memberLineIndices .ascii (codeLines text) "comm_idup" := by
  have hreg : clusterMembers idupRow.cluster = some ["comm_idup"] := by decide +kernel
  rw [mem_memberLineIndices_iff (by decide)]
  constructor
  · rintro ⟨members, hmembers, member, hmem, hword⟩
    obtain rfl := Option.some.inj (hreg.symm.trans hmembers)
    obtain rfl := List.mem_singleton.1 hmem
    exact hword
  · intro hword
    exact ⟨_, hreg, _, List.mem_singleton_self _, hword⟩

/-- The row has no failure, and the second declaration is outside every conditional. -/
theorem not_guardsSound_repeated : ¬ GuardsSound .ascii idupRow repeatedText := by
  intro h
  have hmention : Mentions .ascii idupRow repeatedText 4 :=
    mentions_idupRow_iff.2 (by decide +kernel)
  obtain ⟨g, hg, -⟩ :=
    h "" (fun _ => some repeatedText) rfl (by decide +kernel) 4 hmention
  have hopen : openBefore (mark .ascii (codeLines repeatedText)) 4 = [] := by decide +kernel
  rw [hopen] at hg
  exact nomatch hg

/-- The member is declared once for a platform and once for the others, under one guard. -/
def platformText : List Char :=
  ["#if UNIMPI_MPI_AT_LEAST(3,1)\n", "/* MPI-3.1 comm_idup */\n", "#ifdef _WIN32\n",
    "int (*comm_idup)(void);\n", "#endif\n", "int (*comm_idup)(int);\n",
    "#endif\n"].flatMap String.toList

/-- The checker is right about it, although the second declaration is below the `#endif` it
picks. -/
theorem guardsSound_of_picked_platform :
    checkText .ascii idupRow platformText = .ok [] ∧ GuardsSound .ascii idupRow platformText := by
  refine ⟨by decide +kernel, (guardsSound_of_picked _ _ _).1 ?_⟩
  rintro start stop ⟨_, _, hpicked, -, -⟩ l hmention
  have hguards : lineIndices (search .ascii idupRow.guardPattern) (readlines platformText) = [0] :=
    by decide +kernel
  have hstart := mem_lineIndices_iff.2 hpicked.guard
  rw [hguards] at hstart
  obtain rfl := List.mem_singleton.1 hstart
  have hlines : memberLineIndices .ascii (codeLines platformText) "comm_idup" = [3, 5] := by
    decide +kernel
  have hl := mentions_idupRow_iff.1 hmention
  rw [hlines] at hl
  have hguard : IsGuard .ascii idupRow platformText 0 :=
    ⟨" UNIMPI_MPI_AT_LEAST(3,1)\n".toList, by decide +kernel, by decide +kernel⟩
  have hkept : ∀ k < 5, 0 ≤ excess (mark .ascii (codeLines platformText)) 0 k := by
    decide +kernel
  have hrange : 0 < l ∧ l ≤ 5 := by
    rcases List.mem_pair.1 hl with rfl | rfl <;> decide
  exact not_overlooked_iff.2 ⟨hrange.1, hguard, fun k hk => hkept k (by omega)⟩

/-- In a file whose row's guard is a guard, with every mention inside it and no `#endif` between
them, the checker is right. -/
theorem guardsSound_of_flat (h : ∀ start stop, Passes cls row text start stop →
    IsGuard cls row text start ∧ ∀ l, Mentions cls row text l → start < l ∧
      ∀ k, start < k → k < l → mark cls (codeLines text) k ≠ .closing) :
    GuardsSound cls row text := by
  refine guardsSound_of_not_overlooked fun start stop hpass l hl => ?_
  obtain ⟨hguard, hinside⟩ := h start stop hpass
  obtain ⟨hlt, hplain⟩ := hinside l hl
  exact not_overlooked_iff.2 ⟨hlt, hguard, unclosed_of_forall_ne_closing hplain⟩

/-- A table without a failure wraps all mentions, if the checker is right about its files. -/
theorem wrapped_of_checkGuards {repoRoot : String} {files : String → Option (List Char)}
    {rows : List ClusterRow} (h : checkGuards cls repoRoot files rows = .ok [])
    (hsound : ∀ row ∈ rows, ∀ text, files (resolveFilePath repoRoot row.fname) = some text →
      GuardsSound cls row text) {row : ClusterRow} (hrow : row ∈ rows) :
    ∃ text, files (resolveFilePath repoRoot row.fname) = some text ∧
      ∀ l, Mentions cls row text l → Wrapped cls row text l := by
  have hcheck := (checkGuards_eq_ok_nil_iff rows).1 h row hrow
  cases hfile : files (resolveFilePath repoRoot row.fname) with
  | none =>
    rw [checkRow, hfile] at hcheck
    cases hcheck
  | some text => exact ⟨text, rfl, hsound row hrow text hfile repoRoot files hfile hcheck⟩

/-- A row that passes although a line above every guard mentions a member is wrong. -/
theorem not_guardsSound_of_unguarded {l : ℕ} (hpass : Passes cls row text start stop)
    (hl : Mentions cls row text l) (hnone : ∀ g < l, ¬ IsGuard cls row text g) :
    ¬ GuardsSound cls row text := by
  intro h
  obtain ⟨g, hlt, hguard, -⟩ := wrapped_iff.1 (guardsSound_iff_wrapped.1 h start stop hpass l hl)
  exact hnone g hlt hguard

end UniMPI
