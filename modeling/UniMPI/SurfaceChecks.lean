import Mathlib.Data.Char
import Mathlib.Data.Finset.Sort
import Mathlib.Data.Finset.SDiff
import Mathlib.Data.List.Lex
import Mathlib.Data.List.TakeWhile
import UniMPI.VersionTables

/-!
# The surface checks

The commands `mpi3` and `base` of the version gate. The first compares the registry with
the functions that the version table dates to MPI-3.0 or MPI-3.1, and these with the
function-pointer fields of the two headers. The second takes the functions of MPI-2.2
from a section of the version document and asks for none of them in the registry.

Each command is specified by when it ends with status zero (`runCheckMpi3_status`,
`runCheckBase_status`), which it also does if a header is missing. With the files
there, the three commands pass exactly if the tables agree and the registry is the
dated surface, declared in the headers and without a function of MPI-2.2
(`commands_pass_iff`).
-/

namespace UniMPI

open Assignments Capture LinePattern

/-! ## Failures -/

inductive SurfaceFailure
  | table (failure : TableFailure)
  | noVtable (command path : String)
  | noEvolution (path : String)
  | stray (name : List Char)
  | noHeading (path : String)
  | gatedBase (name : List Char)
deriving DecidableEq

/-- `## MPI 2.2 完整函数清单（基准）` -/
def baseHeading : String :=
  "## MPI 2.2 完整函数清单（基准）"

/-- The message handed to `fail`. -/
def SurfaceFailure.message : SurfaceFailure → String
  | table failure => failure.message
  | noVtable command path => command ++ ": vtable header not found: " ++ path
  | noEvolution path => "base: evolution doc not found: " ++ path
  | stray name => "mpi3: gated registry member '" ++ String.ofList name ++
      "' is not in the canonical MPI-3.0/3.1 roster (check REGISTRY / api_versions.csv)"
  | noHeading path => "base: heading '" ++ baseHeading ++ "' not found in " ++ path
  | gatedBase name => "base: '" ++ String.ofList name ++ "' is gated as >=MPI-3.0 but is in the " ++
      "MPI-2.2 canonical list -- a 2.2 baseline would silently lose it " ++
      "(misclassification regression)"

/-- How a command ends: what `FAILURES` holds, and the exit status. -/
structure Finish where
  failures : List SurfaceFailure
  status : ℕ
deriving DecidableEq

/-! ## The commands -/

/-- Every member of the registry. -/
def gatedNames : Finset (List Char) :=
  ((registry.flatMap Prod.snd).map String.toList).toFinset

/-- `extract_all_fields`, of the text of the header. -/
def extractAllFields (cls : CharClass) (text : List Char) : Finset (List Char) :=
  ((readlines text).filterMap (fieldName cls)).toFinset

/-- The entities of a version. -/
def canonicalNames (entities : List (String × Version)) (v : Version) : Finset (List Char) :=
  ((entities.filter fun entity => entity.2 = v).map fun entity => entity.1.toList).toFinset

/-- The roster of MPI-3.0 and MPI-3.1. -/
def canonicalRoster (entities : List (String × Version)) : Finset (List Char) :=
  canonicalNames entities (toLex (3, 0)) ∪ canonicalNames entities (toLex (3, 1))

/-- `^\s*-\s+MPI_(\w+)`, from the beginning of the line. -/
def bulletName (cls : CharClass) : List Char → Option (List Char) :=
  spaces cls <| lit "-".toList <| many cls.isSpace <| nonempty fun _ =>
    lit "MPI_".toList <| word cls fun name _ => some name

/-- `^##\s` -/
def headingPattern : List Atom :=
  [.lit "##".toList, .spaces 1]

variable (rules : TextRules) (ints : IntRules) (repoRoot : String)
  (files : String → Option (List Char))

/-- The line is the heading of the list. -/
def isBaseHeading (line : List Char) : Bool :=
  strip rules.toCharClass line == baseHeading.toList

/-- The line is a heading that ends the list. -/
def endsBase (line : List Char) : Bool :=
  matchesAt rules.toCharClass headingPattern none (strip rules.toCharClass line)

/-- `load_base_22`, of the text of the document at `path`: the names and what is handed to
`fail`. -/
def loadBase22 (path : String) (text : List Char) : Finset (List Char) × List SurfaceFailure :=
  match (readlines text).dropWhile fun line => !isBaseHeading rules line with
  | [] => (∅, [.noHeading path])
  | _ :: below =>
    let bullets := (below.takeWhile fun line => !endsBase rules line).filterMap
      (bulletName rules.toCharClass)
    ((bullets.map rules.lower).toFinset, [])

/-- The fields of the two headers, where the one of the tools may be missing. -/
def headerFields (text : List Char) : Finset (List Char) :=
  extractAllFields rules.toCharClass text ∪
    match files (resolveFilePath repoRoot "include/unimpi_mt.h") with
    | some mt => extractAllFields rules.toCharClass mt
    | none => ∅

/-- `run_check_mpi3` -/
def runCheckMpi3 (vtable api : String) : Except RunError Finish :=
  match files (resolveFilePath repoRoot vtable) with
  | none => .ok ⟨[.noVtable "mpi3" (resolveFilePath repoRoot vtable)], 0⟩
  | some text => do
    let allFields := headerFields rules repoRoot files text
    let (entities, failures) := loadApiVersions rules.toCharClass ints api (← openFile files api)
    let canonical := canonicalRoster entities
    let stray := gatedNames \ canonical
    let missing := canonical \ allFields
    -- the percentage that is printed divides by the size of the roster
    if canonical.card = 0 then .error .zeroDivision
    else
      return ⟨failures.map .table ++ (stray.sort (· ≤ ·)).map .stray,
        if missing = ∅ ∧ stray = ∅ then 0 else 1⟩

/-- The functions of MPI-2.2 that `base` counts as exposed. -/
def baseCovered (base : Finset (List Char)) (text : List Char) : Finset (List Char) :=
  base ∩ extractAlwaysPresentFields rules text

/-- Those it lists as absent from the whole header. -/
def baseAbsent (base : Finset (List Char)) (text : List Char) : Finset (List Char) :=
  (base \ extractAlwaysPresentFields rules text) \ gatedNames

/-- `run_check_base`, where `evolution` is an absolute path. -/
def runCheckBase (evolution vtable : String) : Except RunError Finish :=
  match files evolution with
  | none => .ok ⟨[.noEvolution evolution], 0⟩
  | some document =>
    let (base, failures) := loadBase22 rules evolution document
    match files (resolveFilePath repoRoot vtable) with
    | none => .ok ⟨failures ++ [.noVtable "base" (resolveFilePath repoRoot vtable)], 0⟩
    | some _ =>
      let failures := failures ++ ((gatedNames ∩ base).sort (· ≤ ·)).map .gatedBase
      -- as above, by the number of functions
      if base.card = 0 then .error .zeroDivision
      else .ok ⟨failures, if failures = [] then 0 else 1⟩

/-! ## The sets of names -/

section
variable {rules ints repoRoot files} {cls : CharClass} {text name : List Char}

theorem mem_gatedNames_iff : name ∈ gatedNames ↔
    ∃ entry ∈ registry, ∃ member ∈ entry.2, member.toList = name := by
  simp only [gatedNames, List.mem_toFinset, List.mem_map, List.mem_flatMap]
  exact ⟨fun ⟨member, ⟨entry, hentry, hmember⟩, heq⟩ => ⟨entry, hentry, member, hmember, heq⟩,
    fun ⟨entry, hentry, member, hmember, heq⟩ => ⟨member, ⟨entry, hentry, hmember⟩, heq⟩⟩

theorem mem_extractAllFields_iff : name ∈ extractAllFields cls text ↔
    ∃ line ∈ readlines text, fieldName cls line = some name := by
  rw [extractAllFields, List.mem_toFinset, List.mem_filterMap]

/-- A name that is found is declared by a function pointer. -/
theorem declaresField_of_mem_extractAllFields (h : name ∈ extractAllFields cls text) :
    ∃ line ∈ readlines text, DeclaresField cls line name := by
  obtain ⟨line, hline, hname⟩ := mem_extractAllFields_iff.1 h
  exact ⟨line, hline, (parses_fieldName cls).sound hname⟩

theorem mem_canonicalNames_iff {path : String} {v : Version} :
    name ∈ canonicalNames (loadApiVersions cls ints path text).1 v ↔
      ∃ entity, VersionIn cls ints text entity v ∧ entity.toList = name := by
  simp only [canonicalNames, List.mem_toFinset, List.mem_map, List.mem_filter, decide_eq_true_eq]
  constructor
  · rintro ⟨⟨entity, v'⟩, ⟨hmem, rfl⟩, rfl⟩
    exact ⟨entity, (lookup_loadApiVersions_eq_some_iff path text).1 (mem_assignAll_iff.1 hmem), rfl⟩
  · rintro ⟨entity, hversion, rfl⟩
    exact ⟨(entity, v), ⟨mem_assignAll_iff.2
      ((lookup_loadApiVersions_eq_some_iff path text).2 hversion), rfl⟩, rfl⟩

/-- `line` is below the first heading of the list, and no heading ends the list before it. -/
def InBaseSection (rules : TextRules) (text line : List Char) : Prop :=
  ∃ above heading within after,
    readlines text = above ++ heading :: (within ++ line :: after) ∧
      (∀ l ∈ above, isBaseHeading rules l = false) ∧ isBaseHeading rules heading = true ∧
        (∀ l ∈ within, endsBase rules l = false) ∧ endsBase rules line = false

/-- A function of MPI-2.2 is a bullet of the section. -/
theorem mem_loadBase22_iff {path : String} : name ∈ (loadBase22 rules path text).1 ↔
    ∃ line, InBaseSection rules text line ∧
      ∃ bullet, bulletName rules.toCharClass line = some bullet ∧ rules.lower bullet = name := by
  constructor
  · intro h
    unfold loadBase22 at h
    split at h
    · simp at h
    · rename_i heading below hdrop
      simp only [List.mem_toFinset, List.mem_map, List.mem_filterMap] at h
      obtain ⟨bullet, ⟨line, hline, hbullet⟩, hname⟩ := h
      obtain ⟨within, rest, htake⟩ := List.append_of_mem hline
      have htaken : ∀ l ∈ within ++ line :: rest, endsBase rules l = false := by
        intro l hl
        rw [← htake] at hl
        simpa using List.mem_takeWhile_imp hl
      refine ⟨line, ⟨(readlines text).takeWhile fun line => !isBaseHeading rules line, heading,
        within, rest ++ below.dropWhile (fun l => !endsBase rules l), ?_, ?_, ?_, ?_, ?_⟩,
        bullet, hbullet, hname⟩
      · have hbelow : within ++ line :: (rest ++ below.dropWhile fun l => !endsBase rules l) =
            below := by
          rw [← List.cons_append, ← List.append_assoc, ← htake, List.takeWhile_append_dropWhile]
        rw [hbelow, ← hdrop, List.takeWhile_append_dropWhile]
      · intro l hl
        simpa using List.mem_takeWhile_imp hl
      · have hne : (readlines text).dropWhile (fun line => !isBaseHeading rules line) ≠ [] := by
          rw [hdrop]
          exact List.cons_ne_nil _ _
        have hhead := List.head_dropWhile_not (fun line => !isBaseHeading rules line) hne
        simpa [hdrop] using hhead
      · exact fun l hl => htaken l (List.mem_append_left _ hl)
      · exact htaken line (List.mem_append_right _ List.mem_cons_self)
  · rintro ⟨line, ⟨above, heading, within, after, hlines, habove, hheading, hwithin, hline⟩, bullet,
      hbullet, hname⟩
    have hdrop : (readlines text).dropWhile (fun line => !isBaseHeading rules line) =
        heading :: (within ++ line :: after) := by
      rw [hlines, List.dropWhile_append_of_pos fun l hl => by simp [habove l hl],
        List.dropWhile_cons_of_neg (by simp [hheading])]
    have hmem : line ∈ (within ++ line :: after).takeWhile fun line => !endsBase rules line := by
      rw [List.takeWhile_append_of_pos fun l hl => by simp [hwithin l hl],
        List.takeWhile_cons_of_pos (by simp [hline])]
      exact List.mem_append_right _ List.mem_cons_self
    unfold loadBase22
    rw [hdrop]
    simp only [List.mem_toFinset, List.mem_map, List.mem_filterMap]
    exact ⟨bullet, ⟨line, hmem, hbullet⟩, hname⟩

/-! ## The commands that pass -/

theorem loadBase22_snd_eq_nil {path : String} (h : (loadBase22 rules path text).1 ≠ ∅) :
    (loadBase22 rules path text).2 = [] := by
  unfold loadBase22 at h ⊢
  split
  · rename_i hdrop
    rw [hdrop] at h
    exact absurd rfl h
  · rfl

theorem gatedNames_ne_empty : gatedNames ≠ ∅ := by
  decide +kernel

/-- `mpi3` ends with status zero if the header is missing, or the registry is dated to MPI-3.0 or
MPI-3.1 and every function so dated is a field of a header. -/
theorem runCheckMpi3_status {vtable api : String} :
    (∃ failures, runCheckMpi3 rules ints repoRoot files vtable api = .ok ⟨failures, 0⟩) ↔
      ∀ text ∈ files (resolveFilePath repoRoot vtable), ∃ apiText ∈ files api,
        gatedNames ⊆ canonicalRoster (loadApiVersions rules.toCharClass ints api apiText).1 ∧
          canonicalRoster (loadApiVersions rules.toCharClass ints api apiText).1 ⊆
            headerFields rules repoRoot files text := by
  unfold runCheckMpi3 openFile
  cases files (resolveFilePath repoRoot vtable) with
  | none => simp
  | some text =>
    cases files api with
    | none => simp [bind, Except.bind]
    | some apiText =>
      simp only [Option.mem_some_iff, forall_eq', exists_eq_left', bind, Except.bind]
      generalize canonicalRoster (loadApiVersions rules.toCharClass ints api apiText).1 = canonical
      split_ifs with hcard hpass
      · refine iff_of_false (by simp) fun h => gatedNames_ne_empty ?_
        exact Finset.subset_empty.1 (Finset.card_eq_zero.1 hcard ▸ h.1)
      · refine iff_of_true ⟨_, rfl⟩ ?_
        exact ⟨Finset.sdiff_eq_empty_iff_subset.1 hpass.2,
          Finset.sdiff_eq_empty_iff_subset.1 hpass.1⟩
      · refine iff_of_false (by simp [pure, Except.pure]) fun h => hpass ?_
        exact ⟨Finset.sdiff_eq_empty_iff_subset.2 h.2, Finset.sdiff_eq_empty_iff_subset.2 h.1⟩

/-- With a list of MPI-2.2, the failures of `base` are its names in the registry. -/
theorem failures_base_eq_nil_iff {path : String} (h : (loadBase22 rules path text).1 ≠ ∅) :
    (loadBase22 rules path text).2 ++
        ((gatedNames ∩ (loadBase22 rules path text).1).sort (· ≤ ·)).map .gatedBase = [] ↔
      Disjoint gatedNames (loadBase22 rules path text).1 := by
  rw [loadBase22_snd_eq_nil h, List.nil_append, List.map_eq_nil_iff, ← List.length_eq_zero_iff,
    Finset.length_sort, Finset.card_eq_zero, Finset.disjoint_iff_inter_eq_empty]

/-- `base` ends with status zero if a file is missing, or the list of MPI-2.2 is there and has no
name of the registry. -/
theorem runCheckBase_status {evolution vtable : String} :
    (∃ failures, runCheckBase rules repoRoot files evolution vtable = .ok ⟨failures, 0⟩) ↔
      ∀ document ∈ files evolution, ∀ text ∈ files (resolveFilePath repoRoot vtable),
        (loadBase22 rules evolution document).1 ≠ ∅ ∧
          Disjoint gatedNames (loadBase22 rules evolution document).1 := by
  unfold runCheckBase
  cases files evolution with
  | none => simp
  | some document =>
    cases files (resolveFilePath repoRoot vtable) with
    | none => simp
    | some text =>
      simp only [Option.mem_some_iff, forall_eq']
      split_ifs with hcard hpass
      · exact iff_of_false (by simp) fun h => h.1 (Finset.card_eq_zero.1 hcard)
      · have hne := mt Finset.card_eq_zero.2 hcard
        exact iff_of_true ⟨_, rfl⟩ ⟨hne, (failures_base_eq_nil_iff hne).1 hpass⟩
      · refine iff_of_false (by simp) fun h => hpass ?_
        exact (failures_base_eq_nil_iff h.1).2 h.2

/-- The numbers of exposed and absent functions that a passing `base` prints add up to all of
them. -/
theorem card_baseCovered_add_card_baseAbsent {base : Finset (List Char)}
    (h : Disjoint gatedNames base) :
    (baseCovered rules base text).card + (baseAbsent rules base text).card = base.card := by
  have habsent : baseAbsent rules base text = base \ extractAlwaysPresentFields rules text :=
    Finset.sdiff_eq_self_of_disjoint (h.symm.mono_left Finset.sdiff_subset)
  rw [habsent]
  exact Finset.card_inter_add_card_sdiff base _

/-! ## The three commands -/

/-- The surface the three commands promise: the registry is what the version table has, dated to
MPI-3.0 or MPI-3.1, guarded, a field of a header, and no function of MPI-2.2. -/
structure SurfaceAgrees (rules : TextRules) (ints : IntRules) (repoRoot : String)
    (files : String → Option (List Char)) (apiText clustersText text document : List Char) :
    Prop where
  tables : TablesAgree rules.toCharClass ints apiText clustersText
  guarded : ∀ line ∈ readlines clustersText, ∀ row, GivesRow rules.toCharClass ints line row →
    GuardsPass rules.toCharClass repoRoot files row
  members : ∀ name, (∃ v, VersionIn rules.toCharClass ints apiText name v) ↔
    ∃ entry ∈ registry, name ∈ entry.2
  dated : ∀ name v, VersionIn rules.toCharClass ints apiText name v →
    v = toLex (3, 0) ∨ v = toLex (3, 1)
  exposed : ∀ entry ∈ registry, ∀ member ∈ entry.2,
    member.toList ∈ headerFields rules repoRoot files text
  base : ∃ line, InBaseSection rules document line ∧ (bulletName rules.toCharClass line).isSome
  disjoint : ∀ line, InBaseSection rules document line →
    ∀ bullet ∈ bulletName rules.toCharClass line, ∀ entry ∈ registry, ∀ member ∈ entry.2,
      rules.lower bullet ≠ member.toList

theorem VersionIn.unique {cls : CharClass} {entity : String} {v v' : Version}
    (h : VersionIn cls ints text entity v) (h' : VersionIn cls ints text entity v') : v = v' :=
  Option.some.inj (((lookup_loadApiVersions_eq_some_iff "" text).2 h).symm.trans
    ((lookup_loadApiVersions_eq_some_iff "" text).2 h'))

theorem mem_canonicalRoster_iff {cls : CharClass} {path entity : String} :
    entity.toList ∈ canonicalRoster (loadApiVersions cls ints path text).1 ↔
      ∃ v, VersionIn cls ints text entity v ∧ (v = toLex (3, 0) ∨ v = toLex (3, 1)) := by
  simp only [canonicalRoster, Finset.mem_union, mem_canonicalNames_iff, String.toList_inj,
    exists_eq_right]
  constructor
  · rintro (h | h)
    · exact ⟨_, h, Or.inl rfl⟩
    · exact ⟨_, h, Or.inr rfl⟩
  · rintro ⟨v, h, rfl | rfl⟩
    · exact Or.inl h
    · exact Or.inr h

/-- What `mpi3` compares, on a version table that covers the registry alone. -/
theorem roster_iff {cls : CharClass} {path : String} {fields : Finset (List Char)}
    (hcovered : ∀ name v, VersionIn cls ints text name v →
      ∃! entry, entry ∈ registry ∧ name ∈ entry.2) :
    (gatedNames ⊆ canonicalRoster (loadApiVersions cls ints path text).1 ∧
        canonicalRoster (loadApiVersions cls ints path text).1 ⊆ fields) ↔
      (∀ name, (∃ v, VersionIn cls ints text name v) ↔ ∃ entry ∈ registry, name ∈ entry.2) ∧
        (∀ name v, VersionIn cls ints text name v → v = toLex (3, 0) ∨ v = toLex (3, 1)) ∧
        ∀ entry ∈ registry, ∀ member ∈ entry.2, member.toList ∈ fields := by
  have hregistered : ∀ name v, VersionIn cls ints text name v →
      ∃ entry ∈ registry, name ∈ entry.2 := fun name v hname => (hcovered name v hname).exists
  constructor
  · rintro ⟨hgated, hfields⟩
    have hroster : ∀ name, (∃ entry ∈ registry, name ∈ entry.2) →
        name.toList ∈ canonicalRoster (loadApiVersions cls ints path text).1 :=
      fun name ⟨entry, hentry, hname⟩ =>
        hgated (mem_gatedNames_iff.2 ⟨entry, hentry, name, hname, rfl⟩)
    refine ⟨fun name => ⟨fun ⟨v, hname⟩ => hregistered name v hname, fun hname => ?_⟩,
      fun name v hname => ?_, fun entry hentry member hmember => ?_⟩
    · obtain ⟨v, hv, -⟩ := mem_canonicalRoster_iff.1 (hroster name hname)
      exact ⟨v, hv⟩
    · have hmember := hroster name (hregistered name v hname)
      obtain ⟨v', hv', hdated⟩ := mem_canonicalRoster_iff.1 hmember
      exact hname.unique hv' ▸ hdated
    · exact hfields (hroster member ⟨entry, hentry, hmember⟩)
  · rintro ⟨hmembers, hdated, hexposed⟩
    constructor
    · intro name hname
      obtain ⟨entry, hentry, member, hmember, rfl⟩ := mem_gatedNames_iff.1 hname
      obtain ⟨v, hv⟩ := (hmembers member).2 ⟨entry, hentry, hmember⟩
      exact mem_canonicalRoster_iff.2 ⟨v, hv, hdated member v hv⟩
    · intro name hname
      obtain ⟨entity, rfl⟩ : ∃ entity : String, entity.toList = name :=
        ⟨String.ofList name, String.toList_ofList⟩
      obtain ⟨v, hv, -⟩ := mem_canonicalRoster_iff.1 hname
      obtain ⟨entry, hentry, hmember⟩ := hregistered entity v hv
      exact hexposed entry hentry entity hmember

/-- What `base` asks for, on the lines of the document. -/
theorem base_iff {path : String} {document : List Char} :
    ((loadBase22 rules path document).1 ≠ ∅ ∧
        Disjoint gatedNames (loadBase22 rules path document).1) ↔
      (∃ line, InBaseSection rules document line ∧ (bulletName rules.toCharClass line).isSome) ∧
        ∀ line, InBaseSection rules document line →
          ∀ bullet ∈ bulletName rules.toCharClass line, ∀ entry ∈ registry, ∀ member ∈ entry.2,
            rules.lower bullet ≠ member.toList := by
  refine and_congr ?_ ?_
  · rw [← Finset.nonempty_iff_ne_empty]
    constructor
    · rintro ⟨name, hname⟩
      obtain ⟨line, hline, bullet, hbullet, -⟩ := mem_loadBase22_iff.1 hname
      exact ⟨line, hline, Option.isSome_of_eq_some hbullet⟩
    · rintro ⟨line, hline, hsome⟩
      obtain ⟨bullet, hbullet⟩ := Option.isSome_iff_exists.1 hsome
      exact ⟨_, mem_loadBase22_iff.2 ⟨line, hline, bullet, hbullet, rfl⟩⟩
  · rw [Finset.disjoint_right]
    constructor
    · intro h line hline bullet hbullet entry hentry member hmember heq
      refine h (mem_loadBase22_iff.2 ⟨line, hline, bullet, hbullet, rfl⟩) ?_
      exact mem_gatedNames_iff.2 ⟨entry, hentry, member, hmember, heq.symm⟩
    · intro h name hbase hgated
      obtain ⟨line, hline, bullet, hbullet, rfl⟩ := mem_loadBase22_iff.1 hbase
      obtain ⟨entry, hentry, member, hmember, heq⟩ := mem_gatedNames_iff.1 hgated
      exact h line hline bullet hbullet entry hentry member hmember heq.symm

/-- With the header and the document there, the three commands pass exactly if the surface
agrees. -/
theorem commands_pass_iff {api clusters vtable evolution : String} {document : List Char}
    (hvtable : files (resolveFilePath repoRoot vtable) = some text)
    (hdocument : files evolution = some document) :
    (runCheck rules.toCharClass ints repoRoot files api clusters true = .ok [] ∧
        (∃ failures, runCheckMpi3 rules ints repoRoot files vtable api = .ok ⟨failures, 0⟩) ∧
        ∃ failures, runCheckBase rules repoRoot files evolution vtable = .ok ⟨failures, 0⟩) ↔
      ∃ apiText clustersText, files api = some apiText ∧ files clusters = some clustersText ∧
        SurfaceAgrees rules ints repoRoot files apiText clustersText text document := by
  rw [runCheck_eq_ok_nil_iff, runCheckMpi3_status, runCheckBase_status, hvtable, hdocument]
  simp only [Option.mem_some_iff, forall_eq', base_iff]
  constructor
  · rintro ⟨⟨apiText, clustersText, hapi, hclusters, htables, hguards⟩, ⟨apiText', hapi', hroster⟩,
      hbase, hdisjoint⟩
    obtain rfl : apiText = apiText' := Option.some.inj (hapi.symm.trans hapi')
    obtain ⟨hmembers, hdated, hexposed⟩ := (roster_iff htables.covered).1 hroster
    exact ⟨apiText, clustersText, hapi, hclusters, htables, hguards trivial, hmembers, hdated,
      hexposed, hbase, hdisjoint⟩
  · rintro ⟨apiText, clustersText, hapi, hclusters, h⟩
    exact ⟨⟨apiText, clustersText, hapi, hclusters, h.tables, fun _ => h.guarded⟩,
      ⟨apiText, hapi, (roster_iff h.tables.covered).2 ⟨h.members, h.dated, h.exposed⟩⟩,
      h.base, h.disjoint⟩

end

/-- A repository whose cluster table dates a cluster before its function. -/
def earlyFiles (path : String) : Option (List Char) :=
  if path = "/unimpi/include/unimpi_vtable.h" then
    some ("#if UNIMPI_MPI_AT_LEAST(3,0)\n/* MPI-3.0 comm_idup */\n" ++
      "int (*comm_idup)(void);\n#endif\n").toList
  else if path = "/unimpi/docs/MPI_VERSION_EVOLUTION.md" then
    some (baseHeading ++ "\n\n- MPI_Comm_dup\n").toList
  else if path = "/unimpi/tools/api_versions.csv" then some "comm_idup,3,1\n".toList
  else if path = "/unimpi/tools/versioned_clusters.csv" then
    some "include/unimpi_vtable.h,comm_idup,3,0\n".toList
  else none

/-- The row passes the guard checker, but its version is not that of the function. -/
theorem not_commands_pass_early :
    checkRow .ascii ⟨"include/unimpi_vtable.h", "comm_idup", 3, 0⟩ "/unimpi" earlyFiles = .ok [] ∧
    ¬(runCheck TextRules.ascii.toCharClass ⟨.ascii, 4300⟩ "/unimpi" earlyFiles
          "/unimpi/tools/api_versions.csv" "/unimpi/tools/versioned_clusters.csv" true = .ok [] ∧
        (∃ failures, runCheckMpi3 .ascii ⟨.ascii, 4300⟩ "/unimpi" earlyFiles
          "include/unimpi_vtable.h" "/unimpi/tools/api_versions.csv" = .ok ⟨failures, 0⟩) ∧
        ∃ failures, runCheckBase .ascii "/unimpi" earlyFiles
          "/unimpi/docs/MPI_VERSION_EVOLUTION.md" "include/unimpi_vtable.h" =
            .ok ⟨failures, 0⟩) := by
  have hvtable : earlyFiles (resolveFilePath "/unimpi" "include/unimpi_vtable.h") =
      some ("#if UNIMPI_MPI_AT_LEAST(3,0)\n/* MPI-3.0 comm_idup */\n" ++
        "int (*comm_idup)(void);\n#endif\n").toList := by decide +kernel
  have hdocument : earlyFiles "/unimpi/docs/MPI_VERSION_EVOLUTION.md" =
      some (baseHeading ++ "\n\n- MPI_Comm_dup\n").toList := by decide +kernel
  have hrow : (⟨"include/unimpi_vtable.h", "comm_idup", 3, 0⟩ : ClusterRow) ∈
      (loadClusters .ascii ⟨.ascii, 4300⟩ "versioned_clusters.csv"
        "include/unimpi_vtable.h,comm_idup,3,0\n".toList).1 := by decide +kernel
  have hversion : (loadApiVersions .ascii ⟨.ascii, 4300⟩ "api_versions.csv"
      "comm_idup,3,1\n".toList).1.lookup "comm_idup" = some (toLex (3, 1)) := by decide +kernel
  refine ⟨by decide +kernel, fun h => ?_⟩
  obtain ⟨apiText, clustersText, hapi, hclusters, hagrees⟩ :=
    (commands_pass_iff hvtable hdocument).1 h
  obtain rfl : "comm_idup,3,1\n".toList = apiText :=
    Option.some.inj ((show _ = _ by decide +kernel).symm.trans hapi)
  obtain rfl : "include/unimpi_vtable.h,comm_idup,3,0\n".toList = clustersText :=
    Option.some.inj ((show _ = _ by decide +kernel).symm.trans hclusters)
  obtain ⟨line, hline, hgives⟩ := (mem_loadClusters_iff _ _).1 hrow
  obtain ⟨members, hreg, -, -, hub⟩ := hagrees.tables.declared line hline _ hgives
  obtain rfl : members = ["comm_idup"] := Option.some.inj (hreg.symm.trans (by decide +kernel))
  -- the function would have to be of MPI-3.0 at most
  have hle := hub (Or.inr ⟨"comm_idup", List.mem_singleton_self _,
    (lookup_loadApiVersions_eq_some_iff _ _).1 hversion⟩)
  exact absurd hle (by decide)

end UniMPI
