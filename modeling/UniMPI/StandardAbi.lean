import Mathlib.Data.List.Infix
import UniMPI.Provenance

/-!
# Standard ABI libraries

`unimpi_loader_load` refuses a path that names the standard MPI ABI before it opens
anything, and does so on a lowered copy of its first 255 bytes. The second check, in
`unimpi_loader_check_platform_support`, is given the name of the backend and never
refuses. So a path whose `mpi_abi` ends beyond byte 255 is opened like any other.

`standardAbi_refused_iff` : the loader is right about a path exactly if the copy
shows what the path names, and a run opens no standard ABI library exactly if this
holds of the paths it opens.
-/

namespace UniMPI

open Runs

/-- The path contains `mpi_abi` or `mpi-abi` under ASCII case folding. -/
def NamesStandardAbi (path : CString) : Prop :=
  "mpi_abi".toList <:+: path.map Char.toLower ∨ "mpi-abi".toList <:+: path.map Char.toLower

/-- What a path names, it names within its first 255 bytes. -/
def SeenByCheck (path : CString) : Prop :=
  NamesStandardAbi path → NamesStandardAbi (path.take 255)

/-! ## The check -/

theorem strstr_iff (s t : CString) : strstr s t = true ↔ t <:+: s := by
  simp only [strstr, List.any_eq_true, List.mem_tails, List.isPrefixOf_iff_prefix,
    List.infix_iff_prefix_suffix, and_comm]

theorem pathNamesStandardAbi_iff (path : CString) :
    pathNamesStandardAbi path = true ↔ NamesStandardAbi (path.take 255) := by
  simp only [pathNamesStandardAbi, NamesStandardAbi, Bool.or_eq_true, strstr_iff]

/-- What a prefix names, the path names. -/
theorem NamesStandardAbi.of_take {path : CString} {n : ℕ} (h : NamesStandardAbi (path.take n)) :
    NamesStandardAbi path := by
  have hinfix : (path.take n).map Char.toLower <:+: path.map Char.toLower :=
    ((List.take_prefix n path).map Char.toLower).isInfix
  exact h.imp (fun h => h.trans hinfix) fun h => h.trans hinfix

/-- No second library name is one of a standard ABI library. -/
theorem not_namesStandardAbi_alternative {path alt : CString} (h : alternative path = some alt) :
    ¬NamesStandardAbi alt := by
  have hall : ∀ i ∈ unimpiBackends, ∀ alt, i.libNameAlt = some alt →
      alt.length ≤ 255 ∧ pathNamesStandardAbi alt = false := by
    decide
  obtain ⟨i, hfind, halt⟩ := Option.bind_eq_some_iff.1 h
  obtain ⟨hlength, hnot⟩ := hall i (List.mem_of_find?_eq_some hfind) alt halt
  intro hnames
  rw [← List.take_of_length_le hlength, ← pathNamesStandardAbi_iff, hnot] at hnames
  exact Bool.false_ne_true hnames

/-! ## The loader -/

/-- The paths that `unimpi_loader_load` passes to `dlopen`, in order. -/
def dlopenCalls (env : Env) (path : CString) : List CString :=
  if pathNamesStandardAbi path then []
  else if (env.dlopen path).isSome then [path]
  else path :: (alternative path).toList

/-- The path is refused as one of the standard ABI, and nothing is opened. -/
def Refused (env : Env) (path : CString) : Prop :=
  loaderLoad env path = .error .errAbiMismatch ∧ dlopenCalls env path = []

theorem refused_iff (env : Env) (path : CString) :
    Refused env path ↔ NamesStandardAbi (path.take 255) := by
  rw [← pathNamesStandardAbi_iff]
  constructor
  · rintro ⟨-, hnone⟩
    unfold dlopenCalls at hnone
    split_ifs at hnone with hnames
    exact hnames
  · intro hnames
    exact ⟨if_pos hnames, if_pos hnames⟩

/-- The loader is right about a path exactly if its first 255 bytes show what the path names. -/
theorem refused_iff_names_iff (env : Env) (path : CString) :
    (Refused env path ↔ NamesStandardAbi path) ↔ SeenByCheck path := by
  rw [refused_iff]
  exact ⟨Iff.mpr, fun hseen => ⟨.of_take, hseen⟩⟩

theorem loaderLoad_eq_ok_iff {env : Env} {path : CString} {L : Library} :
    loaderLoad env path = .ok L ↔
      ¬NamesStandardAbi (path.take 255) ∧ openPath env path = some L := by
  rw [← pathNamesStandardAbi_iff]
  unfold loaderLoad
  split_ifs with hnames
  · simp [hnames]
  · cases openPath env path <;> simp [hnames]

/-! ## Runs -/

/-- No library was opened under a path of the standard ABI. -/
def NoneOfStandardAbi (g : Provenance) : Prop :=
  ∀ o ∈ g.opened, ¬NamesStandardAbi o.path

/-- If a call opens the library at the path it asks for, the check sees what the path names. -/
def OpensSeen (p : Platform) (t : Sys × Provenance) (c : Call) : Prop :=
  ∀ path, c.loads p t.1.core = some path → (c.env.dlopen path).isSome → SeenByCheck path

theorem NoneOfStandardAbi.record {p : Platform} {s : Sys} {c : Call} {g : Provenance}
    (h : NoneOfStandardAbi g) (hC : OpensSeen p (s, g) c) : NoneOfStandardAbi (g.record p s c) := by
  intro o ho
  rcases Provenance.mem_record_opened.1 ho with hmem | ⟨path, hloads, hload, hpath⟩
  · exact h o hmem
  · obtain ⟨hnot, hopen⟩ := loaderLoad_eq_ok_iff.1 hload
    rw [hpath]
    unfold openedPath
    split_ifs with hfirst
    · exact fun hnames => hnot (hC path hloads hfirst hnames)
    · cases halt : alternative path with
      | some alt => exact not_namesStandardAbi_alternative halt
      | none =>
        rw [Bool.not_eq_true, Option.isSome_eq_false_iff, Option.isNone_iff_eq_none] at hfirst
        simp [openPath, hfirst, halt] at hopen

/-- A call that opens a library whose path names more than the check sees leaves it open under that
path. -/
theorem NoneOfStandardAbi.of_record {p : Platform} {s : Sys} {c : Call} {g : Provenance}
    (h : NoneOfStandardAbi (g.record p s c)) : NoneOfStandardAbi g ∧ OpensSeen p (s, g) c := by
  refine ⟨fun o ho => h o (Provenance.mem_record_opened.2 (Or.inl ho)), ?_⟩
  intro path hloads hfirst hnames
  by_contra hnot
  obtain ⟨L, hL⟩ := Option.isSome_iff_exists.1 hfirst
  have hload : loaderLoad c.env path = .ok L :=
    loaderLoad_eq_ok_iff.2 ⟨hnot, by simp [openPath, hL]⟩
  have hopened : openedPath c.env path = path := if_pos hfirst
  exact h ⟨path, L⟩ (Provenance.mem_record_opened.2 (Or.inr ⟨path, hloads, hload, hopened.symm⟩))
    hnames

/-! ## Results -/

/-- For every path, the loader refuses it unopened exactly when it names the standard ABI, if and
only if its first 255 bytes show what it names; and a run has opened no library of the standard ABI,
nor bound the facade to one, if and only if every path it has opened was one of these. -/
theorem standardAbi_refused_iff (p : Platform) :
    (∀ env path, (Refused env path ↔ NamesStandardAbi path) ↔ SeenByCheck path) ∧
    ∀ t, Reaches (TracedStep p) (fun _ _ => True) tracedInitial t →
      (NoneOfStandardAbi t.2 ↔
        Reaches (TracedStep p) (OpensSeen p) tracedInitial t) ∧
      (NoneOfStandardAbi t.2 → ∀ s, s = .init ∨ s = .initThread →
        t.1.core.tables.unimpi s ≠ .null → ∃ o, t.1.core.tables.unimpi s =
          o.library.bind s.symbol ∧ o ∈ t.2.opened ∧ ¬NamesStandardAbi o.path) := by
  refine ⟨refused_iff_names_iff, fun t ht => ⟨?_, fun hnone s hs hne => ?_⟩⟩
  · refine ht.iff_of_lasting (P := fun t => NoneOfStandardAbi t.2) ?_ ?_ ?_
    · rintro ⟨s, g⟩ c ⟨s', g'⟩ ⟨-, rfl⟩ hnone hC
      exact hnone.record hC
    · rintro ⟨s, g⟩ c ⟨s', g'⟩ ⟨-, rfl⟩ hnone
      exact hnone.of_record
    · exact fun o ho => absurd ho List.not_mem_nil
  · obtain ⟨o, hmem, -, heq⟩ := (Traces.of_reaches ht).bound s hs hne
    exact ⟨o, heq, hmem, hnone o hmem⟩

/-- `unimpi_init` for a library path, with `L` behind every path. -/
def libraryCall (path : CString) (L : Library) : Call :=
  ⟨.init, { Env.offering (some L) 0 with unimpiLibrary := some path }⟩

/-- A library in four nested directories of 62 letters each. -/
def longPath : CString :=
  (List.replicate 4 ('/' :: List.replicate 62 'a')).flatten ++ "/libmpi_abi.so".toList

theorem namesStandardAbi_longPath : NamesStandardAbi longPath := by
  refine Or.inl ((strstr_iff _ _).1 ?_)
  decide +kernel

/-- A short path is refused, and a library found under another one is none of the standard ABI. -/
theorem standardAbi_refused_iff_short :
    Refused (.offering (some mpichLibrary) 0) "/tmp/LIBMPI-ABI.DYLIB".toList ∧
    ∃ t, Reaches (TracedStep .linux) (fun _ _ => True) tracedInitial t ∧
      t.1.core.gState = .active ∧ NoneOfStandardAbi t.2 := by
  have hseen : SeenByCheck "/tmp/LIBMPI-ABI.DYLIB".toList := fun hnames => hnames
  have hnames : NamesStandardAbi "/tmp/LIBMPI-ABI.DYLIB".toList := by
    rw [NamesStandardAbi, ← strstr_iff, ← strstr_iff]
    decide
  refine ⟨(((standardAbi_refused_iff .linux).1 _ _).2 hseen).2 hnames, ?_⟩
  have hrun : ((Sys.initial.after .linux (libraryCall "/opt/libmpi.so".toList mpichLibrary)).map
      fun s => s.core.gState) = some .active := by decide +kernel
  obtain ⟨s, hs, hactive⟩ := Option.map_eq_some_iff.1 hrun
  have hreach := reaches_traced_call (C := fun _ _ => True) trivial hs
  refine ⟨_, hreach, hactive, (((standardAbi_refused_iff .linux).2 _ hreach).1).2 ?_⟩
  refine .tail .refl ?_ ⟨hs, rfl⟩
  intro path hloads _ hnames
  obtain rfl : "/opt/libmpi.so".toList = path := by
    have : Call.loads .linux (libraryCall "/opt/libmpi.so".toList mpichLibrary) .initial =
      some "/opt/libmpi.so".toList := by decide
    exact Option.some.inj (this.symm.trans hloads)
  exact hnames

/-- A longer path is opened, and its library is the MPICH backend of a started facade. -/
theorem not_standardAbi_refused_long :
    (¬∀ env path, Refused env path ↔ NamesStandardAbi path) ∧
    ¬∀ t, Reaches (TracedStep .linux) (fun _ _ => True) tracedInitial t →
      t.1.core.gState = .active → t.1.core.gBackendType = .mpich →
      ∀ o, t.2.bound = some o → ¬NamesStandardAbi o.path := by
  constructor
  · intro h
    have hrefused := ((refused_iff _ _).1
      ((h (.offering (some mpichLibrary) 0) longPath).2 namesStandardAbi_longPath))
    rw [← pathNamesStandardAbi_iff] at hrefused
    exact absurd hrefused (by decide +kernel)
  · intro h
    have hrun : ((Sys.initial.after .linux (libraryCall longPath mpichLibrary)).map
        fun s => (s.core.gState, s.core.gBackendType)) = some (.active, .mpich) := by
      decide +kernel
    have hbound : ((Provenance.record .linux .initial (libraryCall longPath mpichLibrary)
        ⟨[], none⟩).bound.map Origin.path) = some longPath := by decide +kernel
    obtain ⟨s, hs, hstate⟩ := Option.map_eq_some_iff.1 hrun
    obtain ⟨hactive, htype⟩ := Prod.mk.inj hstate
    obtain ⟨o, ho, hpath⟩ := Option.map_eq_some_iff.1 hbound
    refine h _ (reaches_traced_call trivial hs) hactive htype o ho ?_
    rw [hpath]
    exact namesStandardAbi_longPath

end UniMPI
