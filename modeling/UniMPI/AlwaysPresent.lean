import Mathlib.Data.Finset.Insert
import UniMPI.GuardChecker
import UniMPI.Lib.Capture

/-!
# The always-present fields

`extract_always_present_fields` of the version gate, which collects the names a
header declares outside the version guards. It counts: a line with a version guard
adds one to the depth, a line that begins with `#endif` takes one away, whichever
conditional it closes. So it reads a line exactly if every version guard above is
followed by more `#endif` lines than version guards (`ReadsLine`,
`mem_extractAlwaysPresentFields_iff`).

A line is enclosed if a version guard is open there under proper nesting. The two
differ where another conditional ends in a version guard, and the result is the
promised one if such lines have no name of their own (`extractsExactly_iff`). Other
conditionals around the guards do no harm (`extractsExactly_of_plainlyWritten`).
-/

namespace UniMPI

open Capture Conditionals LinePattern SourceText

/-! ## The names of a line -/

/-- What the tool uses of Python's text functions. -/
structure TextRules extends CharClass where
  /-- Characters that `re.I` does not tell apart. -/
  sameLetter : Char → Char → Bool
  /-- `str.lower` -/
  lower : List Char → List Char

/-- The rules for plain characters. -/
def TextRules.ascii : TextRules where
  toCharClass := .ascii
  sameLetter c d := c.toLower == d.toLower
  lower name := name.map Char.toLower

/-- `\s*` -/
def spaces {α : Type*} (cls : CharClass) (k : List Char → Option α) : List Char → Option α :=
  many cls.isSpace fun _ cs => k cs

/-- `(\w+)` -/
def word {α : Type*} (cls : CharClass) (k : List Char → List Char → Option α) :
    List Char → Option α :=
  many cls.isWord (nonempty k)

/-- `field_rx`, searched for: `\(\*\s*(\w+)\s*\)`. -/
def fieldName (cls : CharClass) : List Char → Option (List Char) :=
  anywhere <| lit "(*".toList <| spaces cls <| word cls fun name => spaces cls <|
    lit ")".toList fun _ => some name

/-- `extern_rx`, from the beginning of the line: `^\s*extern\s+[^;]+?\*\s*(\w+)\s*;`. -/
def externGlobal (cls : CharClass) : List Char → Option (List Char) :=
  spaces cls <| lit "extern".toList <| many cls.isSpace <| nonempty fun _ =>
    few (fun c => c != ';') <| nonempty fun _ => lit "*".toList <| spaces cls <|
      word cls fun name => spaces cls <| lit ";".toList fun _ => some name

variable (rules : TextRules)

/-- `re.sub(r"^MPI_", "", name, flags=re.I)` -/
def dropMpi (name : List Char) : List Char :=
  match name with
  | m :: p :: i :: u :: rest =>
    if rules.sameLetter 'M' m && rules.sameLetter 'P' p && rules.sameLetter 'I' i &&
        rules.sameLetter '_' u then rest
    else name
  | _ => name

/-- The name of a predefined-value global, as a field of the table. -/
def externName (line : List Char) : Option (List Char) :=
  (externGlobal rules.toCharClass line).map fun name => rules.lower (dropMpi rules name)

/-- The name the function takes from a line: that of a field, else that of a global. -/
def lineName (line : List Char) : Option (List Char) :=
  match fieldName rules.toCharClass line with
  | some name => some name
  | none => externName rules line

/-- A white run. -/
def Blank (cls : CharClass) (cs : List Char) : Prop :=
  ∀ c ∈ cs, cls.isSpace c = true

/-- A word. -/
def IsWord (cls : CharClass) (cs : List Char) : Prop :=
  cs ≠ [] ∧ ∀ c ∈ cs, cls.isWord c = true

/-- A function-pointer field: `(* name )` stands on the line. -/
def DeclaresField (cls : CharClass) (line name : List Char) : Prop :=
  IsWord cls name ∧ ∃ pre a b post, Blank cls a ∧ Blank cls b ∧
    line = pre ++ ("(*".toList ++ (a ++ (name ++ (b ++ (")".toList ++ post)))))

/-- An extern pointer global: the line begins with `extern type * name ;`. -/
def DeclaresGlobal (cls : CharClass) (line name : List Char) : Prop :=
  IsWord cls name ∧ ∃ a b type c d post, Blank cls a ∧ (b ≠ [] ∧ Blank cls b) ∧
    (type ≠ [] ∧ ';' ∉ type) ∧ Blank cls c ∧ Blank cls d ∧
    line = a ++ ("extern".toList ++ (b ++ (type ++ ("*".toList ++ (c ++ (name ++ (d ++
      (";".toList ++ post))))))))

theorem parses_spaces {α : Type*} {cls : CharClass} {m : List Char → Option α}
    {S : List Char → α → Prop} (h : Parses m S) :
    Parses (spaces cls m) (fun cs r => ∃ a rest, Splits cls.isSpace cs a rest ∧ S rest r) :=
  .many fun _ => h

theorem parses_word {α : Type*} {cls : CharClass} {k : List Char → List Char → Option α}
    {T : List Char → List Char → α → Prop} (h : ∀ name, Parses (k name) (T name)) :
    Parses (word cls k) (fun cs r => ∃ name rest, Splits cls.isWord cs name rest ∧
      name ≠ [] ∧ T name rest r) :=
  .many fun name => .nonempty (h name)

/-- The end of both patterns: white space, the name, white space and a last character. -/
theorem parses_tail (cls : CharClass) (last : List Char) :
    Parses (spaces cls <| word cls fun name => spaces cls <| lit last fun _ => some name)
      (fun cs name => IsWord cls name ∧ ∃ a b post, Blank cls a ∧ Blank cls b ∧
        cs = a ++ (name ++ (b ++ (last ++ post)))) := by
  refine (parses_spaces <| parses_word fun name => parses_spaces <| .lit last <|
    .some name).congr fun cs name => ?_
  constructor
  · rintro ⟨a, _, ⟨rfl, ha⟩, _, _, ⟨rfl, hword⟩, hne, b, _, ⟨rfl, hb⟩, post, rfl, rfl⟩
    exact ⟨⟨hne, hword⟩, a, b, post, ha, hb, rfl⟩
  · rintro ⟨⟨hne, hword⟩, a, b, post, ha, hb, rfl⟩
    exact ⟨a, _, ⟨rfl, ha⟩, name, _, ⟨rfl, hword⟩, hne, b, _, ⟨rfl, hb⟩, post, rfl, rfl⟩

/-- The first pattern decides whether a line has a field. -/
theorem parses_fieldName (cls : CharClass) : Parses (fieldName cls) (DeclaresField cls) := by
  refine (Parses.anywhere <| .lit _ <| parses_tail cls _).congr fun line name => ?_
  constructor
  · rintro ⟨pre, _, rfl, _, rfl, hname, a, b, post, ha, hb, rfl⟩
    exact ⟨hname, pre, a, b, post, ha, hb, rfl⟩
  · rintro ⟨hname, pre, a, b, post, ha, hb, rfl⟩
    exact ⟨pre, _, rfl, _, rfl, hname, a, b, post, ha, hb, rfl⟩

/-- The second one decides whether it has a global. -/
theorem parses_externGlobal (cls : CharClass) :
    Parses (externGlobal cls) (DeclaresGlobal cls) := by
  refine (parses_spaces <| .lit _ <| .many fun _ => .nonempty <| .few fun _ => .nonempty <|
    .lit _ <| parses_tail cls _).congr fun line name => ?_
  have htype : ∀ type : List Char, (∀ c ∈ type, (c != ';') = true) ↔ ';' ∉ type := by
    intro type
    simp only [bne_iff_ne, ne_eq]
    exact ⟨fun h hmem => h ';' hmem rfl, fun h c hc heq => h (heq ▸ hc)⟩
  constructor
  · rintro ⟨a, _, ⟨rfl, ha⟩, _, rfl, b, _, ⟨rfl, hb⟩, hbne, type, _, ⟨rfl, ht⟩, htne, _, rfl, hname,
      c, d, post, hc, hd, rfl⟩
    exact ⟨hname, a, b, type, c, d, post, ha, ⟨hbne, hb⟩, ⟨htne, (htype type).1 ht⟩, hc, hd, rfl⟩
  · rintro ⟨hname, a, b, type, c, d, post, ha, ⟨hbne, hb⟩, ⟨htne, ht⟩, hc, hd, rfl⟩
    exact ⟨a, _, ⟨rfl, ha⟩, _, rfl, b, _, ⟨rfl, hb⟩, hbne, type, _, ⟨rfl, (htype type).2 ht⟩, htne,
      _, rfl, hname, c, d, post, hc, hd, rfl⟩

/-- A line has no name if it declares neither. -/
theorem lineName_eq_none_iff {line : List Char} : lineName rules line = none ↔
    ∀ name, ¬DeclaresField rules.toCharClass line name ∧
      ¬DeclaresGlobal rules.toCharClass line name := by
  have hfield : (fieldName rules.toCharClass line).isSome ↔
      ∃ name, DeclaresField rules.toCharClass line name := (parses_fieldName _).isSome_iff
  have hglobal : (externGlobal rules.toCharClass line).isSome ↔
      ∃ name, DeclaresGlobal rules.toCharClass line name := (parses_externGlobal _).isSome_iff
  rw [forall_and, ← not_exists, ← not_exists, ← hfield, ← hglobal]
  unfold lineName externName
  cases fieldName rules.toCharClass line <;> simp

/-! ## The scan -/

variable (cls : CharClass)

/-- `guard_rx` -/
def versionPattern : List Atom :=
  [.lit "#".toList, .spaces 0, .lit "if".toList, .spaces 1, .lit "UNIMPI_MPI_AT_LEAST".toList]

/-- `l.strip()` -/
def strip (line : List Char) : List Char :=
  ((line.dropWhile cls.isSpace).reverse.dropWhile cls.isSpace).reverse

def opensVersion (line : List Char) : Bool :=
  search cls versionPattern line

def closesAny (line : List Char) : Bool :=
  matchesAt cls endifPattern none (strip cls line)

/-- The local variables of the loop. -/
structure FieldScan where
  present : Finset (List Char)
  depth : ℕ

/-- The round for a line. -/
def FieldScan.step (s : FieldScan) (line : List Char) : FieldScan :=
  if opensVersion rules.toCharClass line then { s with depth := s.depth + 1 }
  else if closesAny rules.toCharClass line then { s with depth := s.depth - 1 }
  else if 0 < s.depth then s
  else
    match lineName rules line with
    | some name => { s with present := insert name s.present }
    | none => s

def scanFields (ls : List (List Char)) : FieldScan :=
  ls.foldl (fun s line => s.step rules line) ⟨∅, 0⟩

/-- `extract_always_present_fields`, of the text of the header. -/
def extractAlwaysPresentFields (text : List Char) : Finset (List Char) :=
  (scanFields rules (readlines text)).present

/-! ## What the scan reads -/

variable {rules cls}

/-- What a line does to the depth. -/
def lineMark (cls : CharClass) (line : List Char) : Mark :=
  if opensVersion cls line then .opening
  else if closesAny cls line then .closing
  else .plain

/-- What line `l` does to the depth. -/
def counted (cls : CharClass) (ls : List (List Char)) (l : ℕ) : Mark :=
  (ls[l]?).elim .plain (lineMark cls)

theorem depth_step (s : FieldScan) (line : List Char) :
    (s.step rules line).depth =
      match lineMark rules.toCharClass line with
      | .opening => s.depth + 1
      | .closing => s.depth - 1
      | .plain => s.depth := by
  unfold FieldScan.step lineMark
  split_ifs with hopen hclose hdepth
  · rfl
  · rfl
  · rfl
  · dsimp only
    split <;> rfl

theorem mem_step {s : FieldScan} {line name : List Char} :
    name ∈ (s.step rules line).present ↔ name ∈ s.present ∨
      lineMark rules.toCharClass line = .plain ∧ s.depth = 0 ∧ lineName rules line = some name := by
  unfold FieldScan.step lineMark
  split_ifs with hopen hclose hdepth
  · simp
  · simp
  · simp [Nat.ne_of_gt hdepth]
  · have hzero : s.depth = 0 := by omega
    cases hname : lineName rules line with
    | none => simp
    | some found => simp [hzero, or_comm, eq_comm]

theorem scanFields_take_succ {ls : List (List Char)} {n : ℕ} {line : List Char}
    (h : ls[n]? = some line) :
    scanFields rules (ls.take (n + 1)) = (scanFields rules (ls.take n)).step rules line := by
  rw [List.take_add_one, h, Option.toList_some, scanFields, List.foldl_append]
  rfl

/-- The depth is the number of lines that are open when every `#endif` closes a version guard. -/
theorem depth_scanFields (ls : List (List Char)) :
    ∀ n ≤ ls.length, (scanFields rules (ls.take n)).depth =
      (openBefore (counted rules.toCharClass ls) n).length
  | 0, _ => rfl
  | n + 1, hn => by
    have hline : ls[n]? = some ls[n] := List.getElem?_eq_getElem hn
    have hmark : counted rules.toCharClass ls n = lineMark rules.toCharClass ls[n] := by
      rw [counted, hline, Option.elim_some]
    rw [scanFields_take_succ hline, depth_step, depth_scanFields ls n (by omega), openBefore, hmark]
    cases lineMark rules.toCharClass ls[n] with
    | opening => rfl
    | closing => exact (List.length_tail ..).symm
    | plain => rfl

/-- `lineName` finds the name on line `l`. -/
def NameAt (rules : TextRules) (ls : List (List Char)) (l : ℕ) (name : List Char) : Prop :=
  ∃ line, ls[l]? = some line ∧ lineName rules line = some name

/-- The scan reads the names of line `l`: it is no line that is counted, and every version guard
above it is followed by more `#endif` lines than version guards. -/
def ReadsLine (cls : CharClass) (ls : List (List Char)) (l : ℕ) : Prop :=
  counted cls ls l = .plain ∧ ∀ g < l, counted cls ls g = .opening → ¬Unclosed (counted cls ls) g l

/-- The scan reads the name on line `l`. -/
def ReadsName (rules : TextRules) (ls : List (List Char)) (l : ℕ) (name : List Char) : Prop :=
  ReadsLine rules.toCharClass ls l ∧ NameAt rules ls l name

theorem readsLine_iff {ls : List (List Char)} {l : ℕ} :
    ReadsLine cls ls l ↔ counted cls ls l = .plain ∧ openBefore (counted cls ls) l = [] := by
  rw [openBefore_eq_nil_iff]
  rfl

theorem mem_scanFields {ls : List (List Char)} {name : List Char} :
    ∀ n ≤ ls.length, (name ∈ (scanFields rules (ls.take n)).present ↔
      ∃ l < n, ReadsName rules ls l name)
  | 0, _ => by simp [scanFields]
  | n + 1, hn => by
    have hline : ls[n]? = some ls[n] := List.getElem?_eq_getElem hn
    have hlast : ReadsName rules ls n name ↔
        lineMark rules.toCharClass ls[n] = .plain ∧ (scanFields rules (ls.take n)).depth = 0 ∧
          lineName rules ls[n] = some name := by
      rw [ReadsName, readsLine_iff, depth_scanFields ls n (by omega), List.length_eq_zero_iff,
        and_assoc]
      simp only [counted, NameAt, hline, Option.elim_some, Option.some.injEq, exists_eq_left']
    rw [scanFields_take_succ hline, mem_step, mem_scanFields n (by omega), ← hlast]
    constructor
    · rintro (⟨l, hl, h⟩ | h)
      · exact ⟨l, Nat.lt_succ_of_lt hl, h⟩
      · exact ⟨n, Nat.lt_succ_self n, h⟩
    · rintro ⟨l, hl, h⟩
      rcases Nat.lt_succ_iff_lt_or_eq.1 hl with hlt | rfl
      · exact Or.inl ⟨l, hlt, h⟩
      · exact Or.inr h

/-- The returned names are those of the lines that are read. -/
theorem mem_extractAlwaysPresentFields_iff {text name : List Char} :
    name ∈ extractAlwaysPresentFields rules text ↔
      ∃ l, ReadsName rules (readlines text) l name := by
  have hall : name ∈ (scanFields rules ((readlines text).take (readlines text).length)).present ↔
      _ := mem_scanFields (readlines text).length le_rfl
  rw [List.take_length] at hall
  refine hall.trans (exists_congr fun l => and_iff_right_of_imp ?_)
  rintro ⟨-, line, hline, -⟩
  exact (List.getElem?_eq_some_iff.1 hline).1

/-- A returned name is declared on some line of the header. -/
theorem declared_of_mem_extractAlwaysPresentFields {text name : List Char}
    (h : name ∈ extractAlwaysPresentFields rules text) :
    ∃ line ∈ readlines text, DeclaresField rules.toCharClass line name ∨
      ∃ global, DeclaresGlobal rules.toCharClass line global ∧
        name = rules.lower (dropMpi rules global) := by
  obtain ⟨l, -, line, hline, hname⟩ := mem_extractAlwaysPresentFields_iff.1 h
  refine ⟨line, List.mem_of_getElem? hline, ?_⟩
  unfold lineName at hname
  split at hname
  · rename_i field hfield
    obtain rfl := Option.some.inj hname
    exact Or.inl ((parses_fieldName _).sound hfield)
  · obtain ⟨global, hglobal, rfl⟩ := Option.map_eq_some_iff.1 hname
    exact Or.inr ⟨global, (parses_externGlobal _).sound hglobal, rfl⟩

/-! ## What the function promises -/

/-- One of the two patterns finds the name on line `l`. -/
def Finds (rules : TextRules) (ls : List (List Char)) (l : ℕ) (name : List Char) : Prop :=
  ∃ line, ls[l]? = some line ∧
    (fieldName rules.toCharClass line = some name ∨ externName rules line = some name)

theorem NameAt.finds {ls : List (List Char)} {l : ℕ} {name : List Char}
    (h : NameAt rules ls l name) : Finds rules ls l name := by
  obtain ⟨line, hline, hname⟩ := h
  refine ⟨line, hline, ?_⟩
  unfold lineName at hname
  split at hname
  · rename_i found hfield
    exact Or.inl (hfield.trans hname)
  · exact Or.inr hname

/-- Line `g` is an `#if UNIMPI_MPI_AT_LEAST`, of any version. -/
def IsVersionGuard (cls : CharClass) (text : List Char) (g : ℕ) : Prop :=
  ∃ condition, directiveAt cls (codeLines text) g = some ("if".toList, condition) ∧
    "UNIMPI_MPI_AT_LEAST".toList <+: condition.dropWhile cls.isSpace

instance (cls : CharClass) (text : List Char) (g : ℕ) : Decidable (IsVersionGuard cls text g) :=
  decidable_of_iff (∃ d ∈ directiveAt cls (codeLines text) g, d.1 = "if".toList ∧
      "UNIMPI_MPI_AT_LEAST".toList <+: d.2.dropWhile cls.isSpace) <| by
    simp [IsVersionGuard, Prod.exists]

/-- A version guard is open at line `l`. -/
def Enclosed (cls : CharClass) (text : List Char) (l : ℕ) : Prop :=
  ∃ g ∈ openBefore (mark cls (codeLines text)) l, IsVersionGuard cls text g

/-- The conditionals of the text are properly nested. -/
def ProperlyNested (cls : CharClass) (text : List Char) : Prop :=
  WellNested (mark cls (codeLines text)) (codeLines text).length

/-- Exactly the names on lines outside the version guards are returned. -/
def ExtractsExactly (rules : TextRules) (text : List Char) : Prop :=
  ∀ name, name ∈ extractAlwaysPresentFields rules text ↔
    ∃ l, ¬Enclosed rules.toCharClass text l ∧ Finds rules (readlines text) l name

/-- A version guard above line `l` is not followed by more closing than opening lines. -/
def KeptGuarded (cls : CharClass) (text : List Char) (l : ℕ) : Prop :=
  ∃ g < l, IsVersionGuard cls text g ∧ Unclosed (mark cls (codeLines text)) g l

theorem IsVersionGuard.mark_eq {text : List Char} {g : ℕ} (h : IsVersionGuard cls text g) :
    mark cls (codeLines text) g = .opening := by
  obtain ⟨condition, hdir, -⟩ := h
  exact mark_eq_opening_of_if hdir

theorem enclosed_iff {text : List Char} {l : ℕ} :
    Enclosed cls text l ↔ KeptGuarded cls text l :=
  exists_mem_openBefore_iff fun _ => IsVersionGuard.mark_eq

/-- The names on line `l` that the scan does not take: all of a line that is counted or under a
guard that is not closed for it, and that of a global next to a field of another name. -/
def PassesOver (rules : TextRules) (ls : List (List Char)) (l : ℕ) (name : List Char) : Prop :=
  counted rules.toCharClass ls l ≠ .plain ∨
    (∃ g < l, counted rules.toCharClass ls g = .opening ∧
      Unclosed (counted rules.toCharClass ls) g l) ∨
    ∃ line ∈ ls[l]?, ∃ field ∈ fieldName rules.toCharClass line, field ≠ name

theorem nameAt_iff {ls : List (List Char)} {l : ℕ} {name : List Char}
    (h : Finds rules ls l name) : NameAt rules ls l name ↔
      ¬∃ line ∈ ls[l]?, ∃ field ∈ fieldName rules.toCharClass line, field ≠ name := by
  obtain ⟨line, hline, hname⟩ := h
  simp only [NameAt, lineName, hline, Option.mem_def, Option.some.injEq, exists_eq_left']
  cases hfield : fieldName rules.toCharClass line with
  | some field => simp
  | none =>
    rw [hfield] at hname
    simpa using hname

theorem passesOver_iff {ls : List (List Char)} {l : ℕ} {name : List Char}
    (h : Finds rules ls l name) : PassesOver rules ls l name ↔ ¬ReadsName rules ls l name := by
  have hopen : (∃ g < l, counted rules.toCharClass ls g = .opening ∧
      Unclosed (counted rules.toCharClass ls) g l) ↔
      ¬∀ g < l, counted rules.toCharClass ls g = .opening →
        ¬Unclosed (counted rules.toCharClass ls) g l := by
    push Not
    rfl
  rw [ReadsName, ReadsLine, nameAt_iff h, PassesOver, hopen, not_and_or, not_and_or, not_not,
    or_assoc]

/-- The function returns exactly the promised names if and only if each name that is read on a
line in a version guard is also found outside of them, and each name that is found outside of them
and passed over there is read on another line. -/
theorem extractsExactly_iff (rules : TextRules) (text : List Char) :
    ExtractsExactly rules text ↔
      (∀ l name, KeptGuarded rules.toCharClass text l → ReadsName rules (readlines text) l name →
        ∃ l', ¬KeptGuarded rules.toCharClass text l' ∧ Finds rules (readlines text) l' name) ∧
      ∀ l name, ¬KeptGuarded rules.toCharClass text l → Finds rules (readlines text) l name →
        PassesOver rules (readlines text) l name →
        ∃ l', ReadsName rules (readlines text) l' name := by
  unfold ExtractsExactly
  simp only [mem_extractAlwaysPresentFields_iff, enclosed_iff]
  constructor
  · intro h
    refine ⟨fun l name _ hread => ?_, fun l name hout hfinds _ => ?_⟩
    · exact (h name).1 ⟨l, hread⟩
    · exact (h name).2 ⟨l, hout, hfinds⟩
  · rintro ⟨hleak, hlost⟩ name
    constructor
    · rintro ⟨l, hread⟩
      by_cases hin : KeptGuarded rules.toCharClass text l
      · exact hleak l name hin hread
      · exact ⟨l, hin, hread.2.finds⟩
    · rintro ⟨l, hout, hfinds⟩
      by_cases hread : ReadsName rules (readlines text) l name
      · exact ⟨l, hread⟩
      · exact hlost l name hout hfinds ((passesOver_iff hfinds).2 hread)

/-! ## A conditional inside a guard -/

/-- A platform conditional opened and closed in a version guard, above a field. -/
def ifdefInGuard : List Char :=
  ("#if UNIMPI_MPI_AT_LEAST(3,0)\n" ++
    "#ifdef _WIN32\n" ++
    "#endif\n" ++
    "int (*mprobe)(void);\n" ++
    "#endif\n").toList

/-- The `#endif` of the platform conditional ends the guard for the function, and the field is
returned. -/
theorem not_extractsExactly_ifdef :
    ProperlyNested .ascii ifdefInGuard ∧ ¬ExtractsExactly .ascii ifdefInGuard := by
  refine ⟨by unfold ProperlyNested; decide +kernel, fun h => ?_⟩
  have hreturned : "mprobe".toList ∈ extractAlwaysPresentFields .ascii ifdefInGuard := by
    decide +kernel
  obtain ⟨l, hout, line, hline, hfinds⟩ := (h _).1 hreturned
  have hguard : IsVersionGuard .ascii ifdefInGuard 0 :=
    ⟨" UNIMPI_MPI_AT_LEAST(3,0)\n".toList, by decide +kernel, by decide⟩
  have hopen : 0 ∈ openBefore (mark .ascii (codeLines ifdefInGuard)) 3 := by decide +kernel
  -- no other line has a name
  have hnames : ∀ l < 5, l ≠ 3 → ∀ line ∈ (readlines ifdefInGuard)[l]?,
      fieldName .ascii line = none ∧ externName .ascii line = none := by decide +kernel
  have hlength : (readlines ifdefInGuard).length = 5 := by decide +kernel
  have hl : l < 5 := hlength ▸ (List.getElem?_eq_some_iff.1 hline).1
  by_cases hfield : l = 3
  · exact hout ⟨0, hfield ▸ hopen, hguard⟩
  · obtain ⟨hnofield, hnoextern⟩ := hnames l hl hfield line hline
    rcases hfinds with hfinds | hfinds
    · exact nomatch hnofield.symm.trans hfinds
    · exact nomatch hnoextern.symm.trans hfinds

/-! ## Conditionals around the guards -/

/-- The patterns take a line for a version guard or an `#endif` exactly if it is one. -/
structure PlainlyWritten (cls : CharClass) (text : List Char) : Prop where
  opening : ∀ l, counted cls (readlines text) l = .opening ↔ IsVersionGuard cls text l
  closing : ∀ l, counted cls (readlines text) l = .closing ↔ mark cls (codeLines text) l = .closing

/-- Then a line adds no more to the depth that is counted than to the nesting. -/
theorem PlainlyWritten.weight_le {text : List Char} (h : PlainlyWritten cls text) (l : ℕ) :
    (counted cls (readlines text) l).weight ≤ (mark cls (codeLines text) l).weight := by
  cases hc : counted cls (readlines text) l with
  | opening => rw [((h.opening l).1 hc).mark_eq]
  | closing => rw [(h.closing l).1 hc]
  | plain =>
    cases hm : mark cls (codeLines text) l with
    | opening => decide
    | closing => exact nomatch hc.symm.trans ((h.closing l).2 hm)
    | plain => exact le_rfl

/-- No line outside the version guards is passed over. -/
theorem PlainlyWritten.readsLine_of_not_enclosed {text : List Char} (h : PlainlyWritten cls text)
    {l : ℕ} (hplain : counted cls (readlines text) l = .plain) (hout : ¬Enclosed cls text l) :
    ReadsLine cls (readlines text) l := by
  refine ⟨hplain, fun g hlt hg hun => hout (enclosed_iff.2 ⟨g, hlt, (h.opening g).1 hg, ?_⟩)⟩
  exact hun.of_weight_le fun i _ _ => h.weight_le i

/-- No line in a version guard is read, if there are only version guards in them. -/
theorem PlainlyWritten.not_readsLine_of_enclosed {text : List Char} (h : PlainlyWritten cls text)
    (hinner : ∀ l, mark cls (codeLines text) l = .opening → Enclosed cls text l →
      IsVersionGuard cls text l) {l : ℕ} (hin : Enclosed cls text l) :
    ¬ReadsLine cls (readlines text) l := by
  rintro ⟨-, hclosed⟩
  obtain ⟨g, hlt, hg, hun⟩ := enclosed_iff.1 hin
  refine hclosed g hlt ((h.opening g).2 hg) (hun.of_weight_le fun i hgi hil => ?_)
  cases hm : mark cls (codeLines text) i with
  | opening =>
    have hguard := hinner i hm (enclosed_iff.2 ⟨g, hgi, hg, hun.mono hil.le⟩)
    rw [(h.opening i).2 hguard]
  | closing => rw [(h.closing i).2 hm]
  | plain =>
    rw [← hm]
    cases hc : counted cls (readlines text) i with
    | opening => rw [hm]; decide
    | closing => exact nomatch hm.symm.trans ((h.closing i).1 hc)
    | plain => rw [hm]

/-- In a plainly written header with a name of one kind on a line, and no other conditional in a
version guard, the function returns exactly the promised names. Around the guards there may be any
conditionals. -/
theorem extractsExactly_of_plainlyWritten {text : List Char}
    (h : PlainlyWritten rules.toCharClass text)
    (hinner : ∀ l, mark rules.toCharClass (codeLines text) l = .opening →
      Enclosed rules.toCharClass text l → IsVersionGuard rules.toCharClass text l)
    (hnames : ∀ l name, Finds rules (readlines text) l name →
      counted rules.toCharClass (readlines text) l = .plain ∧
        NameAt rules (readlines text) l name) :
    ExtractsExactly rules text := by
  intro name
  rw [mem_extractAlwaysPresentFields_iff]
  constructor
  · rintro ⟨l, hread, hname⟩
    exact ⟨l, fun hin => h.not_readsLine_of_enclosed hinner hin hread, hname.finds⟩
  · rintro ⟨l, hout, hfinds⟩
    obtain ⟨hplain, hname⟩ := hnames l name hfinds
    exact ⟨l, h.readsLine_of_not_enclosed hplain hout, hname⟩

example : extractAlwaysPresentFields .ascii
    ("#ifdef _WIN32\n#if UNIMPI_MPI_AT_LEAST(3,0)\nint (*mprobe)(void);\n#endif\n" ++
      "int (*send)(void);\n#endif\n").toList = {"send".toList} := by
  decide +kernel

end UniMPI
