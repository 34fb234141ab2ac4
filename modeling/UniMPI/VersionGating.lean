import UniMPI.Lib.Inclusion
import UniMPI.SurfaceChecks

/-!
# The surface of a target

What a build for an MPI version sees of a gated file. `UNIMPI_MPI_AT_LEAST` compares
the target with a version lexicographically (`atLeast_iff`), so each valuation of the
conditions of a file that evaluates the version guards at a target keeps some of its
lines. The other conditions may say anything.

If the version guards have no other branch, a larger target keeps more
(`kept_of_target_le`). If besides the check command passes, a line that mentions a
member of a cluster, and is under no guard that asks for more, is kept for a target
exactly if it is for a target that has the cluster, and the target is at least the
version of every member (`mention_kept_iff`). The always-present fields of a plainly
written header are on lines that depend on no target, and hold all that a target below
every version guard sees (`always_present_of_every_target`).
-/

namespace UniMPI

open Assignments Conditionals Inclusion LinePattern Numeral SourceText

/-! ## Targets -/

/-- `UNIMPI_MPI_AT_LEAST(MJ, MN)`, where the target is the pair of `UNIMPI_MPI_TARGET_VERSION` and
`UNIMPI_MPI_TARGET_SUBVERSION`. -/
def atLeast (target : Version) (mj mn : ℤ) : Bool :=
  decide ((ofLex target).1 > mj) ||
    (decide ((ofLex target).1 = mj) && decide ((ofLex target).2 ≥ mn))

theorem atLeast_iff {target v : Version} :
    atLeast target (ofLex v).1 (ofLex v).2 = true ↔ v ≤ target := by
  rw [Prod.Lex.le_iff]
  simp only [atLeast, Bool.or_eq_true, Bool.and_eq_true, decide_eq_true_eq, gt_iff_lt, ge_iff_le]
  exact or_congr_right (and_congr_left' eq_comm)

/-- `UNIMPI_MPI_AT_LEAST(<maj>,<min>)` -/
def versionTest (v : Version) : String :=
  "UNIMPI_MPI_AT_LEAST(" ++ toString (ofLex v).1 ++ "," ++ toString (ofLex v).2 ++ ")"

theorem toList_test (maj mn : String) :
    ("UNIMPI_MPI_AT_LEAST(" ++ maj ++ "," ++ mn ++ ")").toList =
      "UNIMPI_MPI_AT_LEAST(".toList ++
        (maj.toList ++ (",".toList ++ (mn.toList ++ ")".toList))) := by
  simp only [String.toList_append, List.append_assoc]

theorem toString_toList_injective {n n' : ℤ} (h : (toString n).toList = (toString n').toList) :
    n = n' := by
  have hread : ∀ n : ℤ, signed .ascii 0 (toString n).toList = some n := fun n =>
    signed_toString (Or.inl rfl)
  apply Option.some.inj
  rw [← hread n, h, hread n']

/-- A piece without the separator ends where the separator is. -/
theorem append_sep_inj {sep : Char} {a a' b b' : List Char} (ha : sep ∉ a) (ha' : sep ∉ a')
    (h : a ++ ([sep] ++ b) = a' ++ ([sep] ++ b')) : a = a' ∧ b = b' := by
  have hsplit := congrArg (List.splitOn sep) h
  rw [List.singleton_append, List.singleton_append,
    List.splitOn_append_cons_self_of_not_mem ha,
    List.splitOn_append_cons_self_of_not_mem ha'] at hsplit
  obtain ⟨rfl, -⟩ := List.cons.inj hsplit
  exact ⟨rfl, List.append_cancel_left (List.append_cancel_left h)⟩

/-- The text of the test names its version. -/
theorem versionTest_injective : Function.Injective versionTest := by
  intro v v' h
  have hcomma : ∀ n : ℤ, ',' ∉ (toString n).toList := by
    intro n hc
    rcases isDigit_or_eq_of_mem_toString hc with h | h
    · exact absurd h (by decide)
    · exact absurd h (by decide)
  have hlist := (toList_test _ _).symm.trans ((congrArg String.toList h).trans (toList_test _ _))
  obtain ⟨hmaj, hmn⟩ := append_sep_inj (hcomma _) (hcomma _) (List.append_cancel_left hlist)
  replace hmn := List.append_cancel_right hmn
  exact ofLex.injective (Prod.ext (toString_toList_injective hmaj) (toString_toList_injective hmn))

/-! ## The version guards of a file -/

section
variable (cls : CharClass) (text : List Char)

/-- Line `g` is `#if UNIMPI_MPI_AT_LEAST(maj,min)` with version `v`. -/
def GuardOf (g : ℕ) (v : Version) : Prop :=
  ∃ condition, directiveAt cls (codeLines text) g = some ("if".toList, condition) ∧
    condition.filter (fun c => !cls.isSpace c) = (versionTest v).toList

/-- Line `g` tests the target for some version. -/
def TestsTarget (g : ℕ) : Prop :=
  ∃ v, GuardOf cls text g v

/-- The conditions of the lines, for a target. -/
def Evaluates (target : Version) (holds : ℕ → Bool) : Prop :=
  ∀ g v, GuardOf cls text g v → holds g = atLeast target (ofLex v).1 (ofLex v).2

/-- The conditions of one build for two targets, which differ in the tests of the target alone. -/
structure SameBuild (target target' : Version) (holds holds' : ℕ → Bool) : Prop where
  eval : Evaluates cls text target holds
  eval' : Evaluates cls text target' holds'
  agree : ∀ k, ¬TestsTarget cls text k → holds k = holds' k

/-- No line of `V` has an `#else` or an `#elif`. -/
def OneBranch (V : ℕ → Prop) : Prop :=
  ∀ k, (lineStep cls (codeLines text) k = .another ∨
      lineStep cls (codeLines text) k = .otherwise) →
    ∀ g ∈ (openBefore (mark cls (codeLines text)) k).head?, ¬V g

/-- No version guard that is open at line `l` asks for more than `v`. -/
def AsksAtMost (v : Version) (l : ℕ) : Prop :=
  ∀ g ∈ openBefore (mark cls (codeLines text)) l, ∀ v', GuardOf cls text g v' → v' ≤ v

/-- Line `l` is kept. -/
abbrev KeptAt (holds : ℕ → Bool) (l : ℕ) : Prop :=
  Kept (lineStep cls (codeLines text)) holds l

end

variable {cls : CharClass} {text : List Char} {g l : ℕ} {v v' : Version}

theorem GuardOf.unique (h : GuardOf cls text g v) (h' : GuardOf cls text g v') : v = v' := by
  obtain ⟨condition, hdir, htest⟩ := h
  obtain ⟨condition', hdir', htest'⟩ := h'
  obtain rfl : condition = condition' :=
    (Prod.mk.inj (Option.some.inj (hdir.symm.trans hdir'))).2
  exact versionTest_injective (String.toList_injective (htest.symm.trans htest'))

theorem TestsTarget.lineStep_eq (h : TestsTarget cls text g) :
    lineStep cls (codeLines text) g = .opening := by
  obtain ⟨v, condition, hdir, -⟩ := h
  rw [lineStep, hdir]
  rfl

theorem IsVersionGuard.lineStep_eq (h : IsVersionGuard cls text g) :
    lineStep cls (codeLines text) g = .opening := by
  obtain ⟨condition, hdir, -⟩ := h
  rw [lineStep, hdir]
  rfl

/-- The guards of a row are those of its version. -/
theorem isGuard_iff {row : ClusterRow} : IsGuard cls row text g ↔ GuardOf cls text g row.version :=
  Iff.rfl

/-- The other conditions may say anything, whatever the target is. -/
theorem exists_evaluates (target : Version) (others : ℕ → Bool) :
    ∃ holds, Evaluates cls text target holds ∧
      ∀ k, ¬TestsTarget cls text k → holds k = others k := by
  have hline : ∀ k, ∃ b, (∀ v, GuardOf cls text k v → b = atLeast target (ofLex v).1 (ofLex v).2) ∧
      (¬TestsTarget cls text k → b = others k) := by
    intro k
    by_cases hk : TestsTarget cls text k
    · obtain ⟨v, hv⟩ := hk
      refine ⟨atLeast target (ofLex v).1 (ofLex v).2, fun v' hv' => ?_, fun hk => absurd ⟨v, hv⟩ hk⟩
      rw [hv.unique hv']
    · exact ⟨others k, fun v hv => absurd ⟨v, hv⟩ hk, fun _ => rfl⟩
  choose holds heval hothers using hline
  exact ⟨holds, heval, hothers⟩

theorem unbranched_of_oneBranch {V : ℕ → Prop} (h : OneBranch cls text V) (hg : V g) :
    Unbranched (lineStep cls (codeLines text)) g l := by
  intro k _ _ hstep hhead
  rw [openLines_lineStep] at hhead
  exact h k hstep g hhead hg

section
variable {target target' : Version} {holds holds' : ℕ → Bool}

/-- A larger target keeps every line that a smaller one keeps. -/
theorem kept_of_target_le (hone : OneBranch cls text (TestsTarget cls text))
    (hle : target ≤ target') (hbuild : SameBuild cls text target target' holds holds')
    (h : KeptAt cls text holds l) : KeptAt cls text holds' l := by
  refine h.mono (fun k hk => hk.lineStep_eq) hbuild.agree ?_ fun g _ hg =>
    unbranched_of_oneBranch hone hg
  rintro g ⟨v, hv⟩ hholds
  rw [hbuild.eval g v hv, atLeast_iff] at hholds
  rw [hbuild.eval' g v hv, atLeast_iff]
  exact hholds.trans hle

/-- Under a version guard that asks for the most, a line is kept for a target exactly if it is for a
target that passes the guard, and the target passes it too. -/
theorem kept_iff_of_guard (hone : OneBranch cls text (TestsTarget cls text))
    (hbuild : SameBuild cls text target target' holds holds') (hpass : v ≤ target')
    (hg : g ∈ openBefore (mark cls (codeLines text)) l) (hguard : GuardOf cls text g v)
    (hmost : AsksAtMost cls text v l) :
    KeptAt cls text holds l ↔ KeptAt cls text holds' l ∧ v ≤ target := by
  have hall : ∀ g' ∈ openLines (lineStep cls (codeLines text)) l,
      TestsTarget cls text g' → holds' g' = true := by
    rintro g' hg' ⟨v', hv'⟩
    rw [openLines_lineStep] at hg'
    rw [hbuild.eval' g' v' hv', atLeast_iff]
    exact (hmost g' hg' v' hv').trans hpass
  refine (kept_iff_of_agree (fun k hk => hk.lineStep_eq) hbuild.agree hall fun g' _ hg' =>
    unbranched_of_oneBranch hone hg').trans (and_congr_right fun _ => ?_)
  rw [openLines_lineStep]
  constructor
  · intro h
    rw [← atLeast_iff, ← hbuild.eval g v hguard]
    exact h g hg ⟨v, hguard⟩
  · rintro hle g' hg' ⟨v', hv'⟩
    rw [hbuild.eval g' v' hv', atLeast_iff]
    exact (hmost g' hg' v' hv').trans hle

end

theorem lt_length_of_directiveAt {code : List (List Char)} {d : List Char × List Char}
    (h : directiveAt cls code l = some d) : l < code.length := by
  unfold directiveAt at h
  split_ifs at h
  obtain ⟨line, hline, -⟩ := Option.bind_eq_some_iff.1 h
  exact (List.getElem?_eq_some_iff.1 hline).1

theorem lt_length_of_mark_ne_plain {code : List (List Char)} (h : mark cls code l ≠ .plain) :
    l < code.length := by
  cases hdir : directiveAt cls code l with
  | none => exact absurd (by rw [mark, hdir]) h
  | some d => exact lt_length_of_directiveAt hdir

theorem lt_length_of_counted_ne_plain {ls : List (List Char)} (h : counted cls ls l ≠ .plain) :
    l < ls.length := by
  by_contra hl
  exact h (by rw [counted, List.getElem?_eq_none (Nat.not_lt.1 hl), Option.elim_none])

/-- A file without `#else` and `#elif`. -/
theorem oneBranch_of_forall (h : ∀ k < (codeLines text).length,
    lineStep cls (codeLines text) k ≠ .another ∧ lineStep cls (codeLines text) k ≠ .otherwise)
    (V : ℕ → Prop) : OneBranch cls text V := by
  intro k hstep
  by_cases hk : k < (codeLines text).length
  · rcases hstep with hstep | hstep
    · exact absurd hstep (h k hk).1
    · exact absurd hstep (h k hk).2
  · have hnone : directiveAt cls (codeLines text) k = none :=
      Option.eq_none_iff_forall_ne_some.2 fun d hd => hk (lt_length_of_directiveAt hd)
    have htext : lineStep cls (codeLines text) k = .text := by rw [lineStep, hnone]
    rw [htext] at hstep
    rcases hstep with hstep | hstep <;> exact Step.noConfusion hstep

/-- A header with one gated function. -/
def idupHeader : List Char :=
  ("#ifndef UNIMPI_VTABLE_H\n" ++
    "#if UNIMPI_MPI_AT_LEAST(3,1)\n" ++
    "/* MPI-3.1 comm_idup */\n" ++
    "int (*comm_idup)(void);\n" ++
    "#endif\n" ++
    "#endif\n").toList

theorem guardOf_idupHeader : GuardOf .ascii idupHeader 1 (toLex (3, 1)) :=
  ⟨" UNIMPI_MPI_AT_LEAST(3,1)\n".toList, by decide +kernel, by decide +kernel⟩

theorem eq_of_guardOf_idupHeader (h : GuardOf .ascii idupHeader g v) :
    g = 1 ∧ v = toLex (3, 1) := by
  have hif : ∀ k < (codeLines idupHeader).length, k ≠ 1 →
      (directiveAt .ascii (codeLines idupHeader) k).map Prod.fst ≠ some "if".toList := by
    decide +kernel
  have hg : g = 1 := by
    obtain ⟨condition, hdir, -⟩ := h
    by_contra hne
    exact hif g (lt_length_of_directiveAt hdir) hne (by rw [hdir]; rfl)
  subst hg
  exact ⟨rfl, h.unique guardOf_idupHeader⟩

theorem oneBranch_idupHeader (V : ℕ → Prop) : OneBranch .ascii idupHeader V :=
  oneBranch_of_forall (by decide +kernel) V

/-- The header is built once for MPI-2.2 and once for MPI-3.1. -/
theorem sameBuild_idupHeader : SameBuild .ascii idupHeader (toLex (2, 2)) (toLex (3, 1))
    (fun k => decide (k = 0)) (fun k => decide (k ≤ 1)) where
  eval g v h := by
    obtain ⟨rfl, rfl⟩ := eq_of_guardOf_idupHeader h
    decide
  eval' g v h := by
    obtain ⟨rfl, rfl⟩ := eq_of_guardOf_idupHeader h
    decide
  agree k hk := by
    have hne : k ≠ 1 := by
      rintro rfl
      exact hk ⟨_, guardOf_idupHeader⟩
    simp only [decide_eq_decide]
    omega

/-- A header with a function of every target, one of MPI-2.2 and one of MPI-3.1. -/
def nestedHeader : List Char :=
  ["#ifndef UNIMPI_VTABLE_H\n", "int (*send)(void);\n", "#if UNIMPI_MPI_AT_LEAST(2,2)\n",
    "int (*reduce_local)(void);\n", "#if UNIMPI_MPI_AT_LEAST(3,1)\n",
    "int (*comm_idup)(void);\n", "#endif\n", "#endif\n", "#endif\n"].flatMap String.toList

theorem guardOf_nestedHeader : GuardOf .ascii nestedHeader 2 (toLex (2, 2)) ∧
    GuardOf .ascii nestedHeader 4 (toLex (3, 1)) :=
  ⟨⟨" UNIMPI_MPI_AT_LEAST(2,2)\n".toList, by decide +kernel, by decide +kernel⟩,
    " UNIMPI_MPI_AT_LEAST(3,1)\n".toList, by decide +kernel, by decide +kernel⟩

theorem eq_of_guardOf_nestedHeader (h : GuardOf .ascii nestedHeader g v) :
    g = 2 ∧ v = toLex (2, 2) ∨ g = 4 ∧ v = toLex (3, 1) := by
  have hif : ∀ k < (codeLines nestedHeader).length, k ≠ 2 → k ≠ 4 →
      (directiveAt .ascii (codeLines nestedHeader) k).map Prod.fst ≠ some "if".toList := by
    decide +kernel
  have hg : g = 2 ∨ g = 4 := by
    obtain ⟨condition, hdir, -⟩ := h
    by_contra hne
    obtain ⟨h2, h4⟩ := not_or.1 hne
    exact hif g (lt_length_of_directiveAt hdir) h2 h4 (by rw [hdir]; rfl)
  rcases hg with rfl | rfl
  · exact Or.inl ⟨rfl, h.unique guardOf_nestedHeader.1⟩
  · exact Or.inr ⟨rfl, h.unique guardOf_nestedHeader.2⟩

theorem oneBranch_nestedHeader (V : ℕ → Prop) : OneBranch .ascii nestedHeader V :=
  oneBranch_of_forall (by decide +kernel) V

/-- What holds in a build of the header for a target. -/
def nestedHolds (target : Version) (k : ℕ) : Bool :=
  if k = 2 then atLeast target 2 2 else if k = 4 then atLeast target 3 1 else k = 0

theorem evaluates_nestedHolds (target : Version) :
    Evaluates .ascii nestedHeader target (nestedHolds target) := by
  intro g v h
  rcases eq_of_guardOf_nestedHeader h with ⟨rfl, rfl⟩ | ⟨rfl, rfl⟩ <;> rfl

theorem sameBuild_nestedHeader (target target' : Version) :
    SameBuild .ascii nestedHeader target target' (nestedHolds target) (nestedHolds target') where
  eval := evaluates_nestedHolds target
  eval' := evaluates_nestedHolds target'
  agree k hk := by
    have h2 : k ≠ 2 := by
      rintro rfl
      exact hk ⟨_, guardOf_nestedHeader.1⟩
    have h4 : k ≠ 4 := by
      rintro rfl
      exact hk ⟨_, guardOf_nestedHeader.2⟩
    simp [nestedHolds, h2, h4]

/-- MPI-3.1 keeps the function of MPI-2.2, and has one that MPI-2.2 has not. -/
theorem kept_of_target_le_nested :
    KeptAt .ascii nestedHeader (nestedHolds (toLex (3, 1))) 3 ∧
      KeptAt .ascii nestedHeader (nestedHolds (toLex (3, 1))) 5 ∧
      ¬KeptAt .ascii nestedHeader (nestedHolds (toLex (2, 2))) 5 := by
  refine ⟨?_, by decide +kernel, by decide +kernel⟩
  exact kept_of_target_le (oneBranch_nestedHeader _) (by decide)
    (sameBuild_nestedHeader (toLex (2, 2)) (toLex (3, 1))) (by decide +kernel)

/-! ## What a target sees of the clusters -/

section
variable {ints : IntRules} {repoRoot api clusters : String} {files : String → Option (List Char)}
  {apiText clustersText line : List Char} {row : ClusterRow}

/-- The declared version of a row is passed exactly if every member's version is. -/
theorem TablesAgree.version_le_iff (h : TablesAgree cls ints apiText clustersText)
    (hline : line ∈ readlines clustersText) (hrow : GivesRow cls ints line row)
    {target : Version} (hzero : toLex (0, 0) ≤ target) :
    row.version ≤ target ↔ ∀ members, clusterMembers row.cluster = some members →
      ∀ member ∈ members, ∀ v, VersionIn cls ints apiText member v → v ≤ target := by
  obtain ⟨members, hreg, -, hmem, hub⟩ := h.declared line hline row hrow
  constructor
  · intro hle members' hreg' member hmember v hv
    obtain rfl : members = members' := Option.some.inj (hreg.symm.trans hreg')
    exact (hub (Or.inr ⟨member, hmember, hv⟩)).trans hle
  · intro hall
    rcases hmem with hzero' | ⟨member, hmember, hv⟩
    · exact hzero'.trans_le hzero
    · exact hall members hreg member hmember _ hv

/-- If the check command passes, in a file for which the guard checker is right and whose version
guards have one branch, a line that mentions a member of a cluster and is under no guard that asks
for more is kept for a target exactly if it is for a target that has the cluster, and the target is
at least the version of every member. -/
theorem mention_kept_iff (hcheck : runCheck cls ints repoRoot files api clusters true = .ok [])
    (hapi : files api = some apiText) (hclusters : files clusters = some clustersText)
    (hline : line ∈ readlines clustersText) (hrow : GivesRow cls ints line row)
    (hfile : files (resolveFilePath repoRoot row.fname) = some text)
    (hsound : GuardsSound cls row text) (hone : OneBranch cls text (TestsTarget cls text))
    {target target' : Version} {holds holds' : ℕ → Bool}
    (hbuild : SameBuild cls text target target' holds holds')
    (hzero : toLex (0, 0) ≤ target) (hfull : row.version ≤ target')
    (hl : Mentions cls row text l) (hmost : AsksAtMost cls text row.version l) :
    KeptAt cls text holds l ↔ KeptAt cls text holds' l ∧
      ∀ members, clusterMembers row.cluster = some members →
        ∀ member ∈ members, ∀ v, VersionIn cls ints apiText member v → v ≤ target := by
  obtain ⟨apiText', clustersText', hapi', hclusters', htables, hguards⟩ :=
    runCheck_eq_ok_nil_iff.1 hcheck
  obtain rfl : apiText = apiText' := Option.some.inj (hapi.symm.trans hapi')
  obtain rfl : clustersText = clustersText' := Option.some.inj (hclusters.symm.trans hclusters')
  have hrowPass := checkRow_eq_ok_nil_iff.2 (hguards rfl line hline row hrow)
  obtain ⟨g, hg, hguard⟩ := hsound repoRoot files hfile hrowPass l hl
  rw [← htables.version_le_iff hline hrow hzero]
  exact kept_iff_of_guard hone hbuild hfull hg (isGuard_iff.1 hguard) hmost

end

/-- A repository with this header, and tables of its function. -/
def idupFiles (path : String) : Option (List Char) :=
  if path = "/unimpi/include/unimpi_vtable.h" then some idupHeader
  else if path = "/unimpi/tools/api_versions.csv" then some "comm_idup,3,1\n".toList
  else if path = "/unimpi/tools/versioned_clusters.csv" then
    some "include/unimpi_vtable.h,comm_idup,3,1\n".toList
  else none

theorem guardsSound_idupHeader : GuardsSound .ascii idupRow idupHeader := by
  rintro - - - - l hmention
  have hlines : memberLineIndices .ascii (codeLines idupHeader) "comm_idup" = [3] := by
    decide +kernel
  have hl := mentions_idupRow_iff.1 hmention
  rw [hlines] at hl
  obtain rfl := List.mem_singleton.1 hl
  exact ⟨1, by decide +kernel, isGuard_iff.2 guardOf_idupHeader⟩

theorem asksAtMost_idupHeader : AsksAtMost .ascii idupHeader idupRow.version l := by
  intro g _ v hv
  rw [(eq_of_guardOf_idupHeader hv).2]
  exact le_rfl

/-- An MPI-2.2 build does not see it. -/
theorem not_mention_kept_idup :
    ¬KeptAt .ascii idupHeader (fun k => decide (k = 0)) 3 := by
  have hcheck : runCheck .ascii ⟨.ascii, 4300⟩ "/unimpi" idupFiles
      "/unimpi/tools/api_versions.csv" "/unimpi/tools/versioned_clusters.csv" true = .ok [] := by
    decide +kernel
  have hapi : idupFiles "/unimpi/tools/api_versions.csv" = some "comm_idup,3,1\n".toList := by
    decide +kernel
  have hclusters : idupFiles "/unimpi/tools/versioned_clusters.csv" =
      some "include/unimpi_vtable.h,comm_idup,3,1\n".toList := by decide +kernel
  have hfile : idupFiles (resolveFilePath "/unimpi" idupRow.fname) = some idupHeader := by
    decide +kernel
  have hrow : idupRow ∈ (loadClusters .ascii ⟨.ascii, 4300⟩ "versioned_clusters.csv"
      "include/unimpi_vtable.h,comm_idup,3,1\n".toList).1 := by decide +kernel
  obtain ⟨line, hline, hrow⟩ := (mem_loadClusters_iff _ _).1 hrow
  have hversion : (loadApiVersions .ascii ⟨.ascii, 4300⟩ "api_versions.csv"
      "comm_idup,3,1\n".toList).1.lookup "comm_idup" = some (toLex (3, 1)) := by decide +kernel
  rw [lookup_loadApiVersions_eq_some_iff] at hversion
  have hmention : Mentions .ascii idupRow idupHeader 3 :=
    mentions_idupRow_iff.2 (by decide +kernel)
  intro hkept
  obtain ⟨-, hall⟩ := (mention_kept_iff hcheck hapi hclusters hline hrow hfile
    guardsSound_idupHeader (oneBranch_idupHeader _) sameBuild_idupHeader (by decide) (by decide)
    hmention asksAtMost_idupHeader).1 hkept
  exact absurd (hall ["comm_idup"] (by decide +kernel) "comm_idup" (List.mem_singleton_self _) _
    hversion) (by decide)

/-! ## The always-present surface -/

/-- A header in which the patterns see the version guards and the `#endif` lines as they are, a
version guard has no other conditional inside and no other branch, each asks for one version, and a
line with a name has one of one kind. -/
structure PlainHeader (rules : TextRules) (text : List Char) : Prop where
  written : PlainlyWritten rules.toCharClass text
  inner : ∀ l, mark rules.toCharClass (codeLines text) l = .opening →
    Enclosed rules.toCharClass text l → IsVersionGuard rules.toCharClass text l
  names : ∀ l name, Finds rules (readlines text) l name →
    counted rules.toCharClass (readlines text) l = .plain ∧ NameAt rules (readlines text) l name
  tests : ∀ g, IsVersionGuard rules.toCharClass text g ↔ TestsTarget rules.toCharClass text g
  oneBranch : OneBranch rules.toCharClass text (TestsTarget rules.toCharClass text)

/-- A line outside the version guards is kept for every two targets of a build or for neither. -/
theorem kept_iff_of_not_enclosed
    (htests : ∀ g, TestsTarget cls text g → IsVersionGuard cls text g) (hl : ¬Enclosed cls text l)
    {target target' : Version} {holds holds' : ℕ → Bool}
    (hbuild : SameBuild cls text target target' holds holds') :
    KeptAt cls text holds l ↔ KeptAt cls text holds' l := by
  refine kept_congr (fun k hk => hk.lineStep_eq) hbuild.agree fun g hg hguard => hl ⟨g, ?_, ?_⟩
  · rw [openLines_lineStep] at hg
    exact hg
  · exact htests g hguard

/-- A line that is kept for a target below every version guard is outside of them. -/
theorem not_enclosed_of_kept (htests : ∀ g, IsVersionGuard cls text g → TestsTarget cls text g)
    (hone : OneBranch cls text (TestsTarget cls text)) {target : Version} {holds : ℕ → Bool}
    (heval : Evaluates cls text target holds) (hbelow : ∀ g v, GuardOf cls text g v → target < v)
    (hkept : KeptAt cls text holds l) : ¬Enclosed cls text l := by
  rintro ⟨g, hg, hguard⟩
  rw [← openLines_lineStep] at hg
  obtain ⟨grp, hgrp, rfl⟩ := exists_mem_groups holds hg
  obtain ⟨v, hv⟩ := htests _ hguard
  have hlive := (live_of_unbranched hgrp (unbranched_of_oneBranch hone ⟨v, hv⟩)).1
  rw [hkept grp hgrp, heval _ v hv, eq_comm, atLeast_iff] at hlive
  exact absurd hlive (not_le_of_gt (hbelow _ v hv))

/-- The always-present fields do not depend on the target: each is found on a line that is kept for
every two targets of a build or for neither, and a field on a line that is kept for a target below
every version guard is one of them. -/
theorem always_present_of_every_target {rules : TextRules} (hplain : PlainHeader rules text)
    {name : List Char} :
    (name ∈ extractAlwaysPresentFields rules text → ∃ l, Finds rules (readlines text) l name ∧
      ∀ target target' holds holds',
        SameBuild rules.toCharClass text target target' holds holds' →
          (KeptAt rules.toCharClass text holds l ↔ KeptAt rules.toCharClass text holds' l)) ∧
    ∀ l target holds, Finds rules (readlines text) l name →
      Evaluates rules.toCharClass text target holds →
      (∀ g v, GuardOf rules.toCharClass text g v → target < v) →
        KeptAt rules.toCharClass text holds l → name ∈ extractAlwaysPresentFields rules text := by
  have hextracts := extractsExactly_of_plainlyWritten hplain.written hplain.inner hplain.names name
  constructor
  · intro hname
    obtain ⟨l, hout, hfinds⟩ := hextracts.1 hname
    exact ⟨l, hfinds, fun _ _ _ _ hbuild =>
      kept_iff_of_not_enclosed (fun g => (hplain.tests g).2) hout hbuild⟩
  · intro l target holds hfinds heval hbelow hkept
    exact hextracts.2 ⟨l, not_enclosed_of_kept (fun g => (hplain.tests g).1) hplain.oneBranch heval
      hbelow hkept, hfinds⟩

theorem lt_of_counted_nestedHeader (h : counted .ascii (readlines nestedHeader) l ≠ .plain) :
    l < 9 := by
  have hlength : (readlines nestedHeader).length = 9 := by decide +kernel
  exact hlength ▸ lt_length_of_counted_ne_plain h

theorem lt_of_mark_nestedHeader (h : mark .ascii (codeLines nestedHeader) l ≠ .plain) :
    l < 9 := by
  have hlength : (codeLines nestedHeader).length = 9 := by decide +kernel
  exact hlength ▸ lt_length_of_mark_ne_plain h

/-- The patterns see its lines as they are. -/
theorem plainlyWritten_nestedHeader : PlainlyWritten .ascii nestedHeader := by
  have hlines : ∀ l < 9,
      (counted .ascii (readlines nestedHeader) l = .opening ↔
        IsVersionGuard .ascii nestedHeader l) ∧
      (counted .ascii (readlines nestedHeader) l = .closing ↔
        mark .ascii (codeLines nestedHeader) l = .closing) := by
    decide +kernel
  refine ⟨fun l => ⟨fun h => ?_, fun h => ?_⟩, fun l => ⟨fun h => ?_, fun h => ?_⟩⟩
  · exact (hlines l (lt_of_counted_nestedHeader (by simp [h]))).1.1 h
  · exact (hlines l (lt_of_mark_nestedHeader (by simp [h.mark_eq]))).1.2 h
  · exact (hlines l (lt_of_counted_nestedHeader (by simp [h]))).2.1 h
  · exact (hlines l (lt_of_mark_nestedHeader (by simp [h]))).2.2 h

theorem isVersionGuard_nestedHeader_iff :
    IsVersionGuard .ascii nestedHeader g ↔ TestsTarget .ascii nestedHeader g := by
  have hlines : ∀ l < 9, IsVersionGuard .ascii nestedHeader l ↔ l = 2 ∨ l = 4 := by
    decide +kernel
  constructor
  · intro h
    rcases (hlines g (lt_of_mark_nestedHeader (by simp [h.mark_eq]))).1 h with rfl | rfl
    · exact ⟨_, guardOf_nestedHeader.1⟩
    · exact ⟨_, guardOf_nestedHeader.2⟩
  · rintro ⟨v, hv⟩
    rcases eq_of_guardOf_nestedHeader hv with ⟨rfl, -⟩ | ⟨rfl, -⟩
    · exact (hlines 2 (by decide)).2 (Or.inl rfl)
    · exact (hlines 4 (by decide)).2 (Or.inr rfl)

theorem plainHeader_nestedHeader : PlainHeader .ascii nestedHeader where
  written := plainlyWritten_nestedHeader
  inner l hopening henclosed := by
    have hlines : ∀ l < 9, mark .ascii (codeLines nestedHeader) l = .opening →
        IsVersionGuard .ascii nestedHeader l ∨ l = 0 := by
      decide +kernel
    replace hopening : mark .ascii (codeLines nestedHeader) l = .opening := hopening
    refine (hlines l (lt_of_mark_nestedHeader (by simp [hopening])) hopening).resolve_right ?_
    rintro rfl
    obtain ⟨g, hg, -⟩ := henclosed
    exact absurd (lt_of_mem_openBefore hg) (Nat.not_lt_zero g)
  names l name hname := by
    have hlines : ∀ l < 9, ∀ line ∈ (readlines nestedHeader)[l]?,
        externName .ascii line = none ∧ (fieldName TextRules.ascii.toCharClass line = none ∨
          counted TextRules.ascii.toCharClass (readlines nestedHeader) l = .plain) := by
      decide +kernel
    have hlength : (readlines nestedHeader).length = 9 := by decide +kernel
    obtain ⟨line, hline, hfinds⟩ := hname
    have hl : l < 9 := hlength ▸ (List.getElem?_eq_some_iff.1 hline).1
    obtain ⟨hglobal, hplain⟩ := hlines l hl line hline
    have hfield := hfinds.resolve_right fun h => nomatch hglobal.symm.trans h
    refine ⟨hplain.resolve_left fun h => (nomatch h.symm.trans hfield), line, hline, ?_⟩
    simp only [lineName, hfield]
  tests _ := isVersionGuard_nestedHeader_iff
  oneBranch := oneBranch_nestedHeader _

seal extractAlwaysPresentFields in
/-- The function of every target is found so, and MPI-2.1 does not see that of MPI-3.1. -/
theorem always_present_of_every_target_nested :
    (∃ l, Finds .ascii (readlines nestedHeader) l "send".toList ∧
      ∀ target target' holds holds', SameBuild .ascii nestedHeader target target' holds holds' →
        (KeptAt .ascii nestedHeader holds l ↔ KeptAt .ascii nestedHeader holds' l)) ∧
    ¬KeptAt .ascii nestedHeader (nestedHolds (toLex (2, 1))) 5 := by
  have hidup : "comm_idup".toList ∉ extractAlwaysPresentFields .ascii nestedHeader := by
    decide +kernel
  have hline : (readlines nestedHeader)[5]? = some "int (*comm_idup)(void);\n".toList := by
    decide +kernel
  have hfinds : Finds .ascii (readlines nestedHeader) 5 "comm_idup".toList :=
    ⟨_, hline, Or.inl (by decide +kernel)⟩
  have hbelow : ∀ g v, GuardOf .ascii nestedHeader g v → toLex (2, 1) < v := by
    intro g v h
    rcases eq_of_guardOf_nestedHeader h with ⟨-, rfl⟩ | ⟨-, rfl⟩ <;> decide
  refine ⟨(always_present_of_every_target plainHeader_nestedHeader).1 (by decide +kernel),
    fun hkept => hidup ?_⟩
  exact (always_present_of_every_target plainHeader_nestedHeader).2 5 _ _ hfinds
    (evaluates_nestedHolds _) hbelow hkept

end UniMPI
