import Mathlib.Data.List.Forall2
import UniMPI.Lib.SourceText

/-!
# Conditional inclusion

Which lines a preprocessor keeps. Each open conditional is a `Group`, which is live
while its current branch is the first one whose condition holds; a line is kept if
all groups that are open there are live. What the conditions say is a valuation
`holds` of the lines.

A group without another branch so far is live exactly if its opening condition holds
(`live_of_unbranched`). So if some openings, none of them with another branch, depend on a
parameter and no other condition does, a line is kept exactly if it is kept for a value
that makes them all hold and those that are open there hold (`kept_iff_of_agree`).
-/

namespace Inclusion

open Conditionals SourceText

/-- What a line does to the groups: it opens one, begins another branch of the innermost one, with
a condition or without, or closes it. -/
inductive Step
  | opening
  | another
  | otherwise
  | closing
  | text
deriving DecidableEq

/-- What it does to the open conditionals. -/
def Step.mark : Step → Mark
  | opening => .opening
  | closing => .closing
  | another => .plain
  | otherwise => .plain
  | text => .plain

/-- An open conditional: whether its branch is live, and whether it or one before it was. -/
structure Group where
  opener : ℕ
  live : Bool
  taken : Bool

/-- The group in its next branch. -/
def Group.next (g : Group) (holds : Bool) : Group where
  opener := g.opener
  live := !g.taken && holds
  taken := g.taken || holds

/-- The groups that are open at line `l`, innermost first. -/
def groups (step : ℕ → Step) (holds : ℕ → Bool) : ℕ → List Group
  | 0 => []
  | l + 1 =>
    match step l with
    | .opening => ⟨l, holds l, holds l⟩ :: groups step holds l
    | .another => (groups step holds l).modifyHead fun g => g.next (holds l)
    | .otherwise => (groups step holds l).modifyHead fun g => g.next true
    | .closing => (groups step holds l).tail
    | .text => groups step holds l

/-- Line `l` is kept. -/
def Kept (step : ℕ → Step) (holds : ℕ → Bool) (l : ℕ) : Prop :=
  ∀ g ∈ groups step holds l, g.live = true

instance (step : ℕ → Step) (holds : ℕ → Bool) (l : ℕ) : Decidable (Kept step holds l) :=
  inferInstanceAs (Decidable (∀ g ∈ groups step holds l, g.live = true))

/-- The open conditionals of the lines. -/
def openLines (step : ℕ → Step) (l : ℕ) : List ℕ :=
  openBefore (fun k => (step k).mark) l

/-- Between `g` and `l` no other branch of the group of `g` begins. -/
def Unbranched (step : ℕ → Step) (g l : ℕ) : Prop :=
  ∀ k, g < k → k < l → (step k = .another ∨ step k = .otherwise) → (openLines step k).head? ≠ some g

variable {step : ℕ → Step} {holds holds' : ℕ → Bool} {g l : ℕ}

theorem Unbranched.mono {l' : ℕ} (h : Unbranched step g l) (hl : l' ≤ l) : Unbranched step g l' :=
  fun k hgk hkl => h k hgk (hkl.trans_le hl)

theorem map_opener_modifyHead (gs : List Group) (b : Bool) :
    (gs.modifyHead fun g => g.next b).map Group.opener = gs.map Group.opener := by
  cases gs <;> rfl

/-- The groups are the open conditionals. -/
theorem map_opener_groups (step : ℕ → Step) (holds : ℕ → Bool) :
    ∀ l, (groups step holds l).map Group.opener = openLines step l
  | 0 => rfl
  | l + 1 => by
    have ih := map_opener_groups step holds l
    unfold openLines at ih ⊢
    rw [groups, openBefore, ← ih]
    cases step l with
    | opening => rfl
    | another => exact map_opener_modifyHead _ _
    | otherwise => exact map_opener_modifyHead _ _
    | closing => exact List.map_tail
    | text => rfl

theorem mem_openLines_of_mem_groups {grp : Group} (h : grp ∈ groups step holds l) :
    grp.opener ∈ openLines step l :=
  map_opener_groups step holds l ▸ List.mem_map_of_mem h

theorem exists_mem_groups (holds : ℕ → Bool) (h : g ∈ openLines step l) :
    ∃ grp ∈ groups step holds l, grp.opener = g := by
  rw [← map_opener_groups step holds l] at h
  exact List.mem_map.1 h

theorem head?_openLines {grp : Group} {gs : List Group} (h : groups step holds l = grp :: gs) :
    (openLines step l).head? = some grp.opener := by
  rw [← map_opener_groups step holds l, h]
  rfl

theorem mem_modifyHead {f : Group → Group} {gs : List Group} {grp : Group}
    (h : grp ∈ gs.modifyHead f) : (∃ first others, gs = first :: others ∧ grp = f first) ∨
      grp ∈ gs := by
  cases gs with
  | nil => exact Or.inr h
  | cons first others =>
    rcases List.mem_cons.1 h with rfl | h
    · exact Or.inl ⟨first, others, rfl, rfl⟩
    · exact Or.inr (List.mem_cons_of_mem _ h)

/-- A group with one branch is live as its opening condition says. -/
theorem live_of_unbranched {grp : Group} (h : grp ∈ groups step holds l)
    (hun : Unbranched step grp.opener l) :
    grp.live = holds grp.opener ∧ grp.taken = holds grp.opener := by
  induction l with
  | zero => exact absurd h List.not_mem_nil
  | succ l ih =>
    have hold : grp ∈ groups step holds l → grp.live = holds grp.opener ∧
        grp.taken = holds grp.opener := fun h => ih h (hun.mono (Nat.le_succ l))
    -- a line that begins another branch does so in the innermost group
    have hbranch : ∀ b, (step l = .another ∨ step l = .otherwise) →
        grp ∈ ((groups step holds l).modifyHead fun g => g.next b) →
          grp.live = holds grp.opener ∧ grp.taken = holds grp.opener := by
      intro b hstep hmem
      rcases mem_modifyHead hmem with ⟨first, others, hgroups, rfl⟩ | hmem
      · have hlt : first.opener < l := lt_of_mem_openBefore
          (mem_openLines_of_mem_groups (hgroups ▸ List.mem_cons_self))
        exact absurd (head?_openLines hgroups) (hun l hlt (Nat.lt_succ_self l) hstep)
      · exact hold hmem
    rw [groups] at h
    cases hstep : step l with
    | opening =>
      rw [hstep] at h
      rcases List.mem_cons.1 h with rfl | h
      · exact ⟨rfl, rfl⟩
      · exact hold h
    | another =>
      rw [hstep] at h
      exact hbranch _ (Or.inl hstep) h
    | otherwise =>
      rw [hstep] at h
      exact hbranch _ (Or.inr hstep) h
    | closing =>
      rw [hstep] at h
      exact hold (List.mem_of_mem_tail h)
    | text =>
      rw [hstep] at h
      exact hold h

/-! ## Conditions that depend on a parameter -/

/-- The same group, unless its opening condition is one of `V`. -/
def AgreeOutside (V : ℕ → Prop) (a b : Group) : Prop :=
  a.opener = b.opener ∧ (¬V a.opener → a = b)

theorem AgreeOutside.next {V : ℕ → Prop} {a b : Group} (h : AgreeOutside V a b) (c : Bool) :
    AgreeOutside V (a.next c) (b.next c) :=
  ⟨h.1, fun hV => congrArg (fun g => Group.next g c) (h.2 hV)⟩

theorem forall₂_modifyHead {R : Group → Group → Prop} {f : Group → Group} {as bs : List Group}
    (h : List.Forall₂ R as bs) (hf : ∀ a b, R a b → R (f a) (f b)) :
    List.Forall₂ R (as.modifyHead f) (bs.modifyHead f) := by
  cases h with
  | nil => exact List.Forall₂.nil
  | cons hab h => exact List.Forall₂.cons (hf _ _ hab) h

theorem forall₂_tail {R : Group → Group → Prop} {as bs : List Group} (h : List.Forall₂ R as bs) :
    List.Forall₂ R as.tail bs.tail := by
  cases h with
  | nil => exact List.Forall₂.nil
  | cons _ h => exact h

/-- Valuations that agree outside some openings agree on all other groups. -/
theorem forall₂_groups {V : ℕ → Prop} (hV : ∀ k, V k → step k = .opening)
    (hagree : ∀ k, ¬V k → holds k = holds' k) :
    ∀ l, List.Forall₂ (AgreeOutside V) (groups step holds l) (groups step holds' l)
  | 0 => List.Forall₂.nil
  | l + 1 => by
    have ih := forall₂_groups hV hagree l
    have hsame : step l ≠ .opening → holds l = holds' l := fun h => hagree l (mt (hV l) h)
    rw [groups, groups]
    cases hstep : step l with
    | opening =>
      refine List.Forall₂.cons ⟨rfl, fun hl => ?_⟩ ih
      rw [hagree l hl]
    | another =>
      rw [hsame (by simp [hstep])]
      exact forall₂_modifyHead ih fun a b h => h.next _
    | otherwise => exact forall₂_modifyHead ih fun a b h => h.next true
    | closing => exact forall₂_tail ih
    | text => exact ih

theorem exists_mem_of_forall₂ {R : Group → Group → Prop} {as bs : List Group}
    (h : List.Forall₂ R as bs) {b : Group} (hb : b ∈ bs) : ∃ a ∈ as, R a b := by
  induction h with
  | nil => exact absurd hb List.not_mem_nil
  | cons hab _ ih =>
    rcases List.mem_cons.1 hb with rfl | hb
    · exact ⟨_, List.mem_cons_self, hab⟩
    · obtain ⟨a, ha, h⟩ := ih hb
      exact ⟨a, List.mem_cons_of_mem _ ha, h⟩

/-- A group of one valuation has its counterpart in the other. -/
theorem exists_agreeOutside {V : ℕ → Prop} (hV : ∀ k, V k → step k = .opening)
    (hagree : ∀ k, ¬V k → holds k = holds' k) {b : Group} (hb : b ∈ groups step holds' l) :
    ∃ a ∈ groups step holds l, AgreeOutside V a b :=
  exists_mem_of_forall₂ (forall₂_groups hV hagree l) hb

/-- If the openings of `V` that are open at a line have one branch so far, the line is kept exactly
if it is kept when they all hold, and they do. -/
theorem kept_iff_of_agree {V : ℕ → Prop} (hV : ∀ k, V k → step k = .opening)
    (hagree : ∀ k, ¬V k → holds k = holds' k) (hall : ∀ g ∈ openLines step l, V g → holds' g = true)
    (hun : ∀ g ∈ openLines step l, V g → Unbranched step g l) :
    Kept step holds l ↔
      Kept step holds' l ∧ ∀ g ∈ openLines step l, V g → holds g = true := by
  constructor
  · intro h
    refine ⟨fun b hb => ?_, fun g hg hVg => ?_⟩
    · by_cases hVb : V b.opener
      · have hb' := mem_openLines_of_mem_groups hb
        rw [(live_of_unbranched hb (hun _ hb' hVb)).1]
        exact hall _ hb' hVb
      · obtain ⟨a, ha, hopener, heq⟩ := exists_agreeOutside hV hagree hb
        rw [← heq (hopener ▸ hVb)]
        exact h a ha
    · obtain ⟨grp, hgrp, rfl⟩ := exists_mem_groups holds hg
      rw [← (live_of_unbranched hgrp (hun _ hg hVg)).1]
      exact h grp hgrp
  · rintro ⟨h, hopen⟩ a ha
    by_cases hVa : V a.opener
    · have ha' := mem_openLines_of_mem_groups ha
      rw [(live_of_unbranched ha (hun _ ha' hVa)).1]
      exact hopen _ ha' hVa
    · obtain ⟨b, hb, hopener, heq⟩ := exists_agreeOutside hV (fun k hk => (hagree k hk).symm) ha
      rw [← heq (hopener ▸ hVa)]
      exact h b hb

/-- A line outside all groups of `V` is kept or not whatever their conditions say. -/
theorem kept_congr {V : ℕ → Prop} (hV : ∀ k, V k → step k = .opening)
    (hagree : ∀ k, ¬V k → holds k = holds' k) (hl : ∀ g ∈ openLines step l, ¬V g) :
    Kept step holds l ↔ Kept step holds' l := by
  rw [kept_iff_of_agree hV hagree (fun g hg h => absurd h (hl g hg))
    fun g hg h => absurd h (hl g hg)]
  exact and_iff_left fun g hg h => absurd h (hl g hg)

/-- A line that is kept stays so when more conditions of `V` hold. -/
theorem Kept.mono {V : ℕ → Prop} (hV : ∀ k, V k → step k = .opening)
    (hagree : ∀ k, ¬V k → holds k = holds' k) (hle : ∀ g, V g → holds g = true → holds' g = true)
    (hun : ∀ g ∈ openLines step l, V g → Unbranched step g l) (h : Kept step holds l) :
    Kept step holds' l := by
  intro b hb
  obtain ⟨a, ha, hopener, heq⟩ := exists_agreeOutside hV hagree hb
  by_cases hVb : V b.opener
  · have hb' := mem_openLines_of_mem_groups hb
    have hlive := h a ha
    rw [(live_of_unbranched ha (hopener ▸ hun _ hb' hVb)).1, hopener] at hlive
    rw [(live_of_unbranched hb (hun _ hb' hVb)).1]
    exact hle _ hVb hlive
  · rw [← heq (hopener ▸ hVb)]
    exact h a ha

/-! ## The lines of a source text -/

variable (cls : LinePattern.CharClass)

/-- What line `l` of a text does to the groups. -/
def lineStep (code : List (List Char)) (l : ℕ) : Step :=
  match directiveAt cls code l with
  | some (name, _) =>
    if name = "if".toList ∨ name = "ifdef".toList ∨ name = "ifndef".toList then .opening
    else if name = "elif".toList ∨ name = "elifdef".toList ∨ name = "elifndef".toList then .another
    else if name = "else".toList then .otherwise
    else if name = "endif".toList then .closing
    else .text
  | none => .text

variable {cls} in
/-- It agrees with what the line does to the open conditionals. -/
theorem mark_lineStep (code : List (List Char)) (l : ℕ) :
    (lineStep cls code l).mark = mark cls code l := by
  unfold lineStep mark
  cases directiveAt cls code l with
  | none => rfl
  | some found =>
    dsimp only
    split_ifs with hopen helif helse hend hend
    all_goals first
      | rfl
      | simp_all

variable {cls} in
theorem openLines_lineStep (code : List (List Char)) (l : ℕ) :
    openLines (lineStep cls code) l = openBefore (mark cls code) l := by
  have hmark : (fun k => (lineStep cls code k).mark) = mark cls code :=
    funext fun k => mark_lineStep code k
  rw [openLines, hmark]

end Inclusion
